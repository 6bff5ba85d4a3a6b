import WidgetSync.Proofs.Clearing

/-!
# Surgery on the Walk

Cutting, altering and grafting, told as what happens to the pre-order.

Each operation works on one place of a forest. In the pre-order, a subtree is a
stretch: taking the subtree out takes out the stretch, altering its root replaces it,
and grafting puts one in. Nodes above the place get other children, so the other
nodes are only the same once their children are forgotten. A node without its
children is `bare`.

All of this is about the clearing around the place. What stands before it and behind
it does not depend on what fills it, as long as nodes are bare.

Which node is meant is said by its position too: no node before the place fits.

## Main definitions

* `Node.bare`: A node without its children.
* `Forest.bare`: The bare nodes of a forest in pre-order.

## Theorems

* `Clearing.bare_fill`: The bare nodes around a clearing are the same whatever fills it.
* `Forest.eraseFirst?_bare`: Cutting takes a stretch out.
* `Forest.alterFirst?_bare`: Altering replaces a stretch.
* `Forest.alterFirst?_swap`: Altering without regard to the children replaces one node.
* `insertAt_split`: Grafting puts a tree among its siblings.
-/

namespace WidgetSync

/-- The node without its children. -/
def Node.bare (n : Node) : Node :=
  { n with children := [] }

namespace Forest

/-- The nodes of a forest in pre-order, without their children. -/
def bare (ns : List Node) : List Node :=
  (walk ns).map Node.bare

@[simp]
theorem bare_nil : bare [] = [] := by
  rw [bare, walk, List.map_nil]

theorem bare_append (as bs : List Node) : bare (as ++ bs) = bare as ++ bare bs := by
  rw [bare, walk_append, List.map_append]
  rfl

theorem bare_cons (n : Node) (ns : List Node) :
    bare (n :: ns) = n.bare :: (bare n.children ++ bare ns) := by
  rw [bare, walk_cons, List.map_append, Node.depthFirst_eq, List.map_cons, List.cons_append]
  rfl

end Forest

namespace Clearing

/-- Without their children, the nodes before a place do not depend on what stands there. -/
theorem bare_before (c : Clearing) (ns ms : Forest) :
    (c.before ns).map Node.bare = (c.before ms).map Node.bare := by
  induction c with
  | between left right => rfl
  | within left parent inner right ih =>
      rw [before, before, List.map_append, List.map_append, List.map_cons, List.map_cons, ih]
      rfl

/-- The bare nodes around a place are the same whatever stands there. -/
theorem bare_fill (c : Clearing) (ns ms : Forest) :
    Forest.bare (c.fill ns)
      = (c.before ms).map Node.bare ++ (Forest.bare ns ++ c.after.map Node.bare) := by
  rw [Forest.bare, walk_fill, List.map_append, List.map_append, c.bare_before ns ms]
  rfl

end Clearing

namespace Forest

variable {fits : Node → Bool}

/-- Replacing takes a stretch out and puts another in. -/
theorem replaceFirst?_bare {instead : Node → Forest} {ns replaced : Forest}
    (h : replaceFirst? fits instead ns = some replaced) :
    ∃ before t after, walk ns = before ++ (t.depthFirst ++ after) ∧
      bare replaced = before.map Node.bare ++ (bare (instead t) ++ after.map Node.bare) ∧
      fits t = true ∧ ∀ m ∈ before, fits m = false := by
  rcases search fits ns with hnone | ⟨c, t, -, rfl, hfits, hbefore⟩
  · rw [replaceFirst?_none instead hnone] at h
    exact absurd h (by simp only [reduceCtorEq, not_false_eq_true])
  · rw [Clearing.replaceFirst?_fill instead hfits hbefore, Option.some.injEq] at h
    refine ⟨c.before [t], t, c.after, ?_, ?_, hfits, hbefore⟩
    · rw [c.walk_fill, walk_cons, walk, List.append_nil]
    · rw [← h, c.bare_fill _ [t]]

/-- Cutting takes a stretch out: the first node that fits and what is below it. -/
theorem eraseFirst?_bare {ns rest : Forest} (h : eraseFirst? fits ns = some rest) :
    ∃ before t after, walk ns = before ++ (t.depthFirst ++ after) ∧
      bare rest = before.map Node.bare ++ after.map Node.bare ∧ fits t = true ∧
      ∀ m ∈ before, fits m = false := by
  rw [eraseFirst?_eq] at h
  rcases replaceFirst?_bare h with ⟨before, t, after, hwalk, hbare, hfits⟩
  exact ⟨before, t, after, hwalk, by rw [hbare, bare_nil, List.nil_append], hfits⟩

/-- Altering replaces a stretch: the first node that fits and what is below it. -/
theorem alterFirst?_bare {alter : Node → Node} {ns altered : Forest}
    (h : alterFirst? fits alter ns = some altered) :
    ∃ before t after, walk ns = before ++ (t.depthFirst ++ after) ∧
      bare altered = before.map Node.bare ++ (bare [alter t] ++ after.map Node.bare) ∧
      fits t = true ∧ ∀ m ∈ before, fits m = false := by
  rw [alterFirst?_eq] at h
  exact replaceFirst?_bare h

/-- Altering without regard to the children replaces one node: the first that fits. -/
theorem alterFirst?_swap {alter : Node → Node} (hkeep : ∀ n, (alter n).children = n.children)
    {ns altered : Forest} (h : alterFirst? fits alter ns = some altered) :
    ∃ before t after, walk ns = before ++ t :: after ∧
      bare altered = before.map Node.bare ++ (alter t).bare :: after.map Node.bare ∧
      fits t = true ∧ ∀ m ∈ before, fits m = false := by
  rcases alterFirst?_bare h with ⟨before, t, after, hwalk, hbare, hfits, hbefore⟩
  refine ⟨before, t, walk t.children ++ after, ?_, ?_, hfits, hbefore⟩
  · rw [hwalk, Node.depthFirst_eq, List.cons_append]
  · rw [hbare, bare_cons, bare_nil, List.append_nil, hkeep, List.map_append, List.cons_append]
    rfl

end Forest

/-- Grafting puts a tree somewhere among its siblings. -/
theorem insertAt_split {α : Type} (index : Int) (a : α) (as : List α) :
    ∃ before after, as = before ++ after ∧ insertAt index a as = before ++ a :: after :=
  ⟨_, _, (List.take_append_drop (placeOf index as.length) as).symm, rfl⟩

end WidgetSync
