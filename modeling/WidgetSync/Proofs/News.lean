import WidgetSync.Arbiter.Serve

/-!
# News of Text and Tree

What becomes of the three calls that bring news: the text changed, the tree changed,
or here is a whole tree.

Each of them asks first whether the arbiter hears it, and then whether there is
anything to accept: a text that can be had, a change that can be applied, a tree that
can be given ids. Only `acceptText` and `acceptTree` do anything beyond that. The
equations say so for each call, and the case distinctions say it without the
conditions, which is what an invariant of the arbiter needs to know: it is kept by
the three calls if it is kept by accepting, by remembering a failure, and by putting
another tree in the place of the one that waits.

## Main definitions

* `Session.hearsText`, `Session.hearsTree`: News of a side are heard.
* `Session.textTold`: The text that changed.

## Theorems

* `Session.textChanged_eq`, `Session.treeChanged_eq`, `Session.treeSent_eq`: What each
  call does.
* `Session.textChanged_cases`, `Session.treeChanged_cases`, `Session.treeSent_cases`:
  What each call may do.
-/

namespace WidgetSync

namespace Session

variable {δ κ σ : Type}

/-- The arbiter takes changes of the text: it listens, and it is not writing the tree. -/
def hearsText (s : Session δ κ σ) : Bool :=
  s.arbiter.listens && s.arbiter.phase ≠ .treeToText

/-- The arbiter takes changes of the tree: it listens, and it is not passing the text
    on. -/
def hearsTree (s : Session δ κ σ) : Bool :=
  s.arbiter.listens && s.arbiter.phase ≠ .textToTree

variable (host : Host δ κ σ) (inner : Call κ → Session δ κ σ → Served δ κ σ)

/-- The text that changed: the one that is told, or else the one in the document. -/
def textTold (told : Option String) (s : Session δ κ σ) : Except Fault String :=
  match told with
  | some text => .ok text
  | none => host.text s.outside

/-- A text that can be had is accepted, if it is heard. -/
theorem textChanged_eq (told : Option String) (s : Session δ κ σ) :
    textChanged host inner told s =
      if s.hearsText then
        match textTold host told s with
        | .error fault => (s, some fault)
        | .ok text => acceptText host inner text s
      else (s, none) := by
  have hdeaf : (!s.arbiter.listens || s.arbiter.phase = .treeToText) = !s.hearsText := by
    rw [hearsText, Bool.not_and, decide_not, Bool.not_not]
  rw [textChanged.eq_def, hdeaf]
  cases s.hearsText with
  | false => rfl
  | true =>
      cases told with
      | some text => rfl
      | none => rfl

/-- What a change of the tree does, or a whole tree, depends on whether it is heard. -/
theorem deaf_iff (s : Session δ κ σ) :
    (!s.arbiter.listens || s.arbiter.phase = .textToTree) = !s.hearsTree := by
  rw [hearsTree, Bool.not_and, decide_not, Bool.not_not]

/-- A change that can be applied waits, any other is refused. -/
theorem treeChanged_eq (change : Change) (s : Session δ κ σ) :
    treeChanged host inner change s =
      if s.hearsTree then
        match change.apply s.arbiter.base with
        | .error fault => (s.remember (some fault), none)
        | .ok (nodes, _) => acceptTree host inner nodes s
      else (s, none) := by
  rw [treeChanged, deaf_iff]
  cases s.hearsTree with
  | true => rfl
  | false => rfl

/-- A tree that can be given ids waits. One that cannot is remembered as a failure, and
    takes the place of the tree that waits. -/
theorem treeSent_eq (nodes : Forest) (s : Session δ κ σ) :
    treeSent host inner nodes s =
      if s.hearsTree then
        match (Forest.assignIds nodes).fault with
        | some fault =>
          ((setPending (some (Forest.assignIds nodes).nodes) s).remember (some fault), none)
        | none => acceptTree host inner (Forest.assignIds nodes).nodes s
      else (s, none) := by
  rw [treeSent, deaf_iff]
  cases s.hearsTree with
  | true => rfl
  | false => rfl

/-- Either nothing becomes of a text, or it is accepted. -/
theorem textChanged_cases (told : Option String) (s : Session δ κ σ) :
    (∃ fault, textChanged host inner told s = (s, fault)) ∨
      ∃ text, textChanged host inner told s = acceptText host inner text s := by
  rw [textChanged_eq]
  cases s.hearsText with
  | false => exact .inl ⟨none, rfl⟩
  | true =>
      cases htold : textTold host told s with
      | error fault => exact .inl ⟨some fault, rfl⟩
      | ok text => exact .inr ⟨text, rfl⟩

/-- Either nothing becomes of a change, or it is refused, or the tree is accepted. -/
theorem treeChanged_cases (change : Change) (s : Session δ κ σ) :
    treeChanged host inner change s = (s, none) ∨
      (∃ fault, treeChanged host inner change s = (s.remember (some fault), none)) ∨
      ∃ nodes, treeChanged host inner change s = acceptTree host inner nodes s := by
  rw [treeChanged_eq]
  cases s.hearsTree with
  | false => exact .inl rfl
  | true =>
      cases happlied : change.apply s.arbiter.base with
      | error fault => exact .inr (.inl ⟨fault, rfl⟩)
      | ok applied => exact .inr (.inr ⟨applied.1, rfl⟩)

/-- The same for a whole tree, except that a refused one waits all the same. -/
theorem treeSent_cases (nodes : Forest) (s : Session δ κ σ) :
    treeSent host inner nodes s = (s, none) ∨
      (∃ kept fault, treeSent host inner nodes s
        = ((setPending (some kept) s).remember (some fault), none)) ∨
      ∃ kept, treeSent host inner nodes s = acceptTree host inner kept s := by
  rw [treeSent_eq]
  cases s.hearsTree with
  | false => exact .inl rfl
  | true =>
      cases hfault : (Forest.assignIds nodes).fault with
      | some fault => exact .inr (.inl ⟨_, fault, rfl⟩)
      | none => exact .inr (.inr ⟨_, rfl⟩)

end Session

end WidgetSync
