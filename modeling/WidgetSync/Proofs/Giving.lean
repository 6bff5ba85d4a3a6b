import WidgetSync.Markup.Reader

/-!
# Where a Value Goes

What becomes of source text that a statement gives a property.

A value that is neither a block nor an object goes one of three ways. Under a name with a point
it is a field of a group, unless the statement stands in a group itself. Under another name it
may be for an attribute: the window and a widget have some, and take the value into themselves.
What is left is a property. `Reading.assign` decides this by the kind of the innermost block, and
each kind has its own branch. Seen from the value there are only the three ways. A statement
about all values is proved once for each of them, whatever block is open.

## Main definitions

* `Reading.group?`: The group that the innermost block is.
* `Reading.absorb`: What the innermost block makes of a value for an attribute.
* `Step.absorbed`: Goes on with that, or else does something else.

## Theorems

* `Reading.assign_pointed`, `Reading.assign_unpointed`: Where a value goes, by its name.
* `Reading.absorb_some`, `Reading.absorb_none`: What the innermost block is if it takes a value,
  and if it does not.
* `Reading.pointed_cases`: The name has a point that counts, or it has none.
-/

namespace WidgetSync

namespace Markup

/-- Goes on with what has been absorbed, or else does something else. -/
def Step.absorbed (found : Except Fault (Option Reading)) (stopped : Reading) (used : Nat)
    (otherwise : Step) : Step :=
  match found with
  | .error _ => .stop stopped
  | .ok (some r) => .next r used []
  | .ok none => otherwise

namespace Reading

/-- The group that the innermost block is. -/
def group? (r : Reading) : Option String :=
  match r.frames with
  | .group name _ :: _ => some name
  | _ => none

/-- What has been read once the innermost block has taken a value for one of its attributes. It
    does not if it has none of the name, or the value is not for it. -/
def absorb (r : Reading) (key raw : String) : Except Fault (Option Reading) :=
  match r.frames with
  | .node n :: fs =>
    (nodeAttribute n key raw).map fun found =>
      found.map fun n => { r with frames := .node n :: fs }
  | .window :: _ =>
    (windowAttribute r.window key raw).map fun found => found.map fun w => { r with window := w }
  | _ => .ok none

variable {r : Reading} {key : String}

/-- A name with a point stands for a field of a group. -/
theorem assign_pointed {head field : String} (hgroup : r.group? = none)
    (hsplit : splitName? key = some (head, field)) (raw : String) (used : Nat) :
    r.assign key raw used
      = Step.given (valueOf raw (Catalog.spelling? field (some head)))
          (r.store head (.group (r.groupFields head))) used
          fun v => r.store head (.group ((r.groupFields head).set field v)) := by
  obtain ⟨window, roots, declared, frames⟩ := r
  unfold assign
  simp only [hsplit, Option.map_some]
  rcases frames with _ | ⟨f, fs⟩
  · rfl
  · cases f with
    | group name fields => exact absurd hgroup (Option.some_ne_none name)
    | _ => rfl

/-- Without a point the innermost block is asked for an attribute, and what it does not take is a
    property. -/
theorem assign_unpointed (hpoints : r.group? = none → splitName? key = none) (raw : String)
    (used : Nat) :
    r.assign key raw used = Step.absorbed (r.absorb key raw) r used
      (Step.given (valueOf raw (Catalog.spelling? key r.group?)) r used (r.store key)) := by
  obtain ⟨window, roots, declared, frames⟩ := r
  unfold assign
  rcases frames with _ | ⟨f, fs⟩
  · rw [hpoints rfl]
    rfl
  · cases f with
    | group name fields => rfl
    | object name type properties holds source =>
        rw [hpoints rfl]
        rfl
    | window =>
        simp only [hpoints rfl, Option.map_none, absorb]
        rcases windowAttribute window key raw with fault | _ | w
        all_goals rfl
    | node n =>
        simp only [hpoints rfl, Option.map_none, absorb]
        rcases nodeAttribute n key raw with fault | _ | m
        all_goals rfl

/-- A widget or the window has taken the value. -/
theorem absorb_some {raw : String} {s : Reading} (h : r.absorb key raw = .ok (some s)) :
    (∃ n m fs, r.frames = .node n :: fs ∧ nodeAttribute n key raw = .ok (some m) ∧
      s = { r with frames := .node m :: fs }) ∨
    ∃ fs w, r.frames = .window :: fs ∧ windowAttribute r.window key raw = .ok (some w) ∧
      s = { r with window := w } := by
  unfold absorb at h
  split at h
  · rename_i n fs hframes
    rcases ok_of_map h with ⟨found, hfound, hs⟩
    rcases Option.map_eq_some_iff.mp hs.symm with ⟨m, rfl, rfl⟩
    exact .inl ⟨n, m, fs, hframes, hfound, rfl⟩
  · rename_i fs hframes
    rcases ok_of_map h with ⟨found, hfound, hs⟩
    rcases Option.map_eq_some_iff.mp hs.symm with ⟨w, rfl, rfl⟩
    exact .inr ⟨fs, w, hframes, hfound, rfl⟩
  · exact absurd (Except.ok.inj h).symm (Option.some_ne_none s)

/-- A widget or the window that is open has no use for the value. -/
theorem absorb_none {raw : String} (h : r.absorb key raw = .ok none) :
    (∀ n fs, r.frames = .node n :: fs → nodeAttribute n key raw = .ok none) ∧
      ∀ fs, r.frames = .window :: fs → windowAttribute r.window key raw = .ok none := by
  refine ⟨fun n fs hframes => ?_, fun fs hframes => ?_⟩
  all_goals
    simp only [absorb, hframes] at h
    rcases ok_of_map h with ⟨found, hfound, hs⟩
    rwa [← Option.map_eq_none_iff.mp hs.symm]

theorem absorb_error {raw : String} {fault : Fault} (h : r.absorb key raw = .error fault) :
    (∃ n, nodeAttribute n key raw = .error fault) ∨
      ∃ w, windowAttribute w key raw = .error fault := by
  unfold absorb at h
  split at h
  · exact .inl ⟨_, map_error_iff.mp h⟩
  · exact .inr ⟨_, map_error_iff.mp h⟩
  · exact absurd h (by simp only [reduceCtorEq, not_false_eq_true])

/-- The name of a value decides where it goes. -/
theorem pointed_cases (r : Reading) (key : String) :
    (∃ head field, r.group? = none ∧ splitName? key = some (head, field)) ∨
      (r.group? = none → splitName? key = none) := by
  cases hgroup : r.group? with
  | some name => exact .inr fun hnone => absurd hnone (Option.some_ne_none name)
  | none =>
      cases hsplit : splitName? key with
      | some parts => exact .inl ⟨parts.1, parts.2, rfl, rfl⟩
      | none => exact .inr fun _ => rfl

end Reading

end Markup

end WidgetSync
