/-!
# Faults

The causes for which an operation gives up.

Values come from hosts, files and command lines, so an operation can meet a
value of a kind it is not defined for. Such an operation answers with the cause,
not with a text, and its caller decides what becomes of it: the reader of a
document falls back to an empty one, the arbiter remembers it as its last
failure, the command line stops.

## Main definitions

* `Fault`: The causes.

## Theorems

* `ok_of_bind`: What succeeds in two steps succeeds in each.
* `ok_of_map`: What succeeds and is changed then succeeds before.
* `bind_error_iff`, `map_error_iff`: Where it fails.
-/

namespace WidgetSync

/-- Why an operation gave up. -/
inductive Fault where
  /-- A value is of a kind that the operation is not defined for. -/
  | unsuited
  /-- A value does not have the part that was asked for. -/
  | lacking
  /-- A required entry is not there. -/
  | missing (name : String)
  /-- A sequence has no element at the place asked for. -/
  | outOfRange
  /-- A number is too large for what it should become. -/
  | overflow
  /-- A value is of the right kind and still not allowed. -/
  | invalid (reason : String)
  /-- A collaborator refused the call. -/
  | refused (reason : String)
  /-- A document or file cannot be used. -/
  | unavailable (reason : String)
deriving DecidableEq, Repr

/-- What succeeds in two steps succeeds in each. -/
theorem ok_of_bind {ε α β : Type} {x : Except ε α} {f : α → Except ε β} {b : β}
    (h : (x >>= f) = .ok b) : ∃ a, x = .ok a ∧ f a = .ok b := by
  cases x with
  | error e => exact absurd h (by simp only [bind, Except.bind, reduceCtorEq, not_false_eq_true])
  | ok a => exact ⟨a, rfl, h⟩

/-- What succeeds and is changed then succeeds before. -/
theorem ok_of_map {ε α β : Type} {x : Except ε α} {f : α → β} {b : β} (h : x.map f = .ok b) :
    ∃ a, x = .ok a ∧ b = f a := by
  cases x with
  | error e => exact absurd h (by simp only [Except.map, reduceCtorEq, not_false_eq_true])
  | ok a => exact ⟨a, rfl, (Except.ok.inj h).symm⟩

theorem not_ok_of_error {ε α : Type} {e : ε} : ¬ ∃ a : α, Except.error e = .ok a := by
  rintro ⟨a, ⟨⟩⟩

theorem ok_of_isOk {ε α : Type} {x : Except ε α} (h : x.isOk = true) : ∃ a, x = .ok a := by
  cases x with
  | error e => exact Bool.noConfusion h
  | ok a => exact ⟨a, rfl⟩

/-- What fails in two steps fails in the first one, or in the second. -/
theorem bind_error_iff {ε α β : Type} {x : Except ε α} {f : α → Except ε β} {e : ε} :
    (x >>= f) = .error e ↔ x = .error e ∨ ∃ a, x = .ok a ∧ f a = .error e := by
  cases x with
  | error e' =>
      simp only [bind, Except.bind, Except.error.injEq, reduceCtorEq, false_and, exists_false,
        or_false]
  | ok a =>
      simp only [bind, Except.bind, reduceCtorEq, false_or, Except.ok.injEq, exists_eq_left']

/-- A change of what succeeds does not change what fails. -/
theorem map_error_iff {ε α β : Type} {x : Except ε α} {f : α → β} {e : ε} :
    x.map f = .error e ↔ x = .error e := by
  cases x with
  | error e' => simp only [Except.map, Except.error.injEq]
  | ok a => exact iff_of_false nofun nofun

theorem ok_of_toOption {ε α : Type} {x : Except ε α} {a : α} (h : x.toOption = some a) :
    x = .ok a := by
  cases x with
  | error e => exact nomatch h
  | ok b => exact congrArg Except.ok (Option.some.inj h)

end WidgetSync
