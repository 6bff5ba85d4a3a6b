import WidgetSync.Node.Surgery
import WidgetSync.Proofs.Relabeling

/-!
# Clearings

A forest with one place left open.

Whoever changes a forest in one place has to leave the rest alone, and the rest is a thing
of its own here. A `Clearing` is a forest without what stands in one place among siblings,
at whatever depth, and `fill` puts trees there. Two forests that fill the same clearing
differ in these trees and in nothing else, so that only one place has changed can be said
without a list of all that has not.

The searches of surgery go to the first node in pre-order that fits. Such a node stands by
itself in a clearing with no node before it that fits, and to alter it or to take it out
is to fill this clearing anew. The two only differ in what they put there, so they are
cases of `replaceFirst?`, and all that has to be said of a search is said of it once.

## Main definitions

* `Forest.replaceFirst?`: A forest with other trees in place of the first node that fits.
* `Clearing`, `Clearing.fill`: A forest with a place left open, and the forest with trees there.
* `Clearing.before`, `Clearing.after`: The nodes around the place, in pre-order.
* `Clearing.inside`: A place among the children of a node that stands in a clearing.
* `Clearing.amid`: A place between trees that stand in a clearing.

## Theorems

* `Forest.induction`: Induction on the children of the first tree and on the other trees.
* `Clearing.walk_fill`: The pre-order around a clearing.
* `Forest.exists_clearing`: The first node that fits stands in a clearing.
* `Forest.search`: If no node fits there is nothing to replace, and else there is a first one.
* `Clearing.replaceFirst?_fill`: Replacing it fills the clearing anew.
-/

namespace WidgetSync

/-- Induction on a forest: on the children of its first tree and on its other trees. -/
@[elab_as_elim]
theorem Forest.induction {p : Forest → Prop} (nil : p [])
    (cons : ∀ n ns, p n.children → p ns → p (n :: ns)) : ∀ ns, p ns
  | [] => nil
  | n :: ns => cons n ns (Forest.induction nil cons n.children) (Forest.induction nil cons ns)
termination_by ns => Forest.size ns
decreasing_by
  · rw [Forest.size, Node.size_eq]
    omega
  · rw [Forest.size, Node.size_eq]
    omega

-- Nodes have nodes in them, and then a node is not by computation what it consists of.
theorem Node.with_children {n : Node} {ns : Forest} (h : n.children = ns) :
    { n with children := ns } = n := by
  cases n
  cases h
  rfl

namespace Forest

/-- The forest with other trees in place of the first node that fits and what is below it, if
    there is such a node. Altering puts one tree there, and cutting none. -/
def replaceFirst? (fits : Node → Bool) (instead : Node → Forest) : Forest → Option Forest
  | [] => none
  | n :: ns =>
    if fits n then some (instead n ++ ns)
    else
      match replaceFirst? fits instead n.children with
      | some below => some ({ n with children := below } :: ns)
      | none => (replaceFirst? fits instead ns).map (n :: ·)
termination_by ns => Forest.size ns
decreasing_by
  · rw [Forest.size, Node.size_eq]
    omega
  · rw [Forest.size, Node.size_eq]
    omega

theorem alterFirst?_eq (fits : Node → Bool) (alter : Node → Node) (ns : Forest) :
    alterFirst? fits alter ns = replaceFirst? fits (fun n => [alter n]) ns := by
  induction ns using Forest.induction with
  | nil => rw [alterFirst?, replaceFirst?]
  | cons n ns below ih =>
      have hfirst : n.alterFirst? fits alter = if fits n then some (alter n)
          else (alterFirst? fits alter n.children).map fun ms => { n with children := ms } := by
        cases n
        rw [Node.alterFirst?]
      rw [alterFirst?, replaceFirst?, hfirst, below, ih]
      by_cases hn : fits n = true
      · rw [if_pos hn, if_pos hn]
        rfl
      · rw [if_neg hn, if_neg hn]
        cases replaceFirst? fits (fun n => [alter n]) n.children with
        | none => rfl
        | some ms => rfl

theorem eraseFirst?_eq (fits : Node → Bool) (ns : Forest) :
    eraseFirst? fits ns = replaceFirst? fits (fun _ => []) ns := by
  induction ns using Forest.induction with
  | nil => rw [eraseFirst?, replaceFirst?]
  | cons n ns below ih =>
      have hbelow : n.eraseBelow? fits
          = (eraseFirst? fits n.children).map fun ms => { n with children := ms } := by
        cases n
        rw [Node.eraseBelow?]
      rw [eraseFirst?, replaceFirst?, hbelow, below, ih]
      by_cases hn : fits n = true
      · rw [if_pos hn, if_pos hn]
        rfl
      · rw [if_neg hn, if_neg hn]
        cases replaceFirst? fits (fun _ => []) n.children with
        | none => rfl
        | some ms => rfl

variable {fits : Node → Bool} (instead : Node → Forest)

/-- Nothing is replaced if no node fits. -/
theorem replaceFirst?_none {ns : Forest} (h : ∀ m ∈ walk ns, fits m = false) :
    replaceFirst? fits instead ns = none := by
  induction ns using Forest.induction with
  | nil => rw [replaceFirst?]
  | cons n ns below ih =>
      rw [forall_walk_cons, Node.forall_depthFirst] at h
      rw [replaceFirst?, if_neg (by rw [h.1.1]; decide), below h.1.2, ih h.2]
      rfl

/-- Trees without a node that fits are passed by. -/
theorem replaceFirst?_append {front : Forest} (h : ∀ m ∈ walk front, fits m = false)
    (ns : Forest) :
    replaceFirst? fits instead (front ++ ns)
      = (replaceFirst? fits instead ns).map (front ++ ·) := by
  induction front with
  | nil => exact Option.map_id'.symm
  | cons n front ih =>
      rw [forall_walk_cons, Node.forall_depthFirst] at h
      rw [List.cons_append, replaceFirst?, if_neg (by rw [h.1.1]; decide),
        replaceFirst?_none instead h.1.2, ih h.2]
      exact Option.map_map ..

end Forest

/-- A forest without what stands in one place. -/
inductive Clearing where
  /-- The place is between trees side by side. -/
  | between (left right : Forest)
  /-- The place is below a tree, whose own children do not count. -/
  | within (left : Forest) (parent : Node) (inner : Clearing) (right : Forest)

namespace Clearing

/-- The forest with some trees in the place. -/
def fill : Clearing → Forest → Forest
  | between left right, ns => left ++ (ns ++ right)
  | within left parent inner right, ns => left ++ { parent with children := inner.fill ns } :: right

/-- The nodes before the place, in pre-order. Those above it hold what stands in it. -/
def before : Clearing → Forest → List Node
  | between left _, _ => Forest.walk left
  | within left parent inner _, ns =>
    Forest.walk left ++ { parent with children := inner.fill ns } :: inner.before ns

/-- The nodes behind the place, in pre-order. -/
def after : Clearing → List Node
  | between _ right => Forest.walk right
  | within _ _ inner right => inner.after ++ Forest.walk right

/-- The same place with more trees in front. -/
def behind (front : Forest) : Clearing → Clearing
  | between left right => between (front ++ left) right
  | within left parent inner right => within (front ++ left) parent inner right

/-- A place among the children of a node that stands in another place. -/
def inside : Clearing → Node → Clearing → Clearing
  | between left right, n, c => within left n c right
  | within left parent inner right, n, c => within left parent (inner.inside n c) right

/-- A place between the trees that stand in another place. -/
def amid : Clearing → Forest → Forest → Clearing
  | between left right, front, back => between (left ++ front) (back ++ right)
  | within left parent inner right, front, back => within left parent (inner.amid front back) right

theorem fill_behind (front : Forest) (c : Clearing) (ns : Forest) :
    (c.behind front).fill ns = front ++ c.fill ns := by
  cases c with
  | between left right => rw [behind, fill, fill, List.append_assoc]
  | within left parent inner right => rw [behind, fill, fill, List.append_assoc]

theorem before_behind (front : Forest) (c : Clearing) (ns : Forest) :
    (c.behind front).before ns = Forest.walk front ++ c.before ns := by
  cases c with
  | between left right => rw [behind, before, before, Forest.walk_append]
  | within left parent inner right =>
      rw [behind, before, before, Forest.walk_append, List.append_assoc]

theorem fill_inside (c inner : Clearing) (n : Node) (ns : Forest) :
    (c.inside n inner).fill ns = c.fill [{ n with children := inner.fill ns }] := by
  induction c with
  | between left right => rfl
  | within left parent c right ih => rw [inside, fill, fill, ih]

theorem fill_amid (c : Clearing) (front back ns : Forest) :
    (c.amid front back).fill ns = c.fill (front ++ (ns ++ back)) := by
  induction c with
  | between left right => rw [amid, fill, fill]; simp only [List.append_assoc]
  | within left parent inner right ih => rw [amid, fill, fill, ih]

/-- What is before a place, what stands there, and what is behind it. -/
theorem walk_fill (c : Clearing) (ns : Forest) :
    Forest.walk (c.fill ns) = c.before ns ++ (Forest.walk ns ++ c.after) := by
  induction c with
  | between left right => rw [fill, before, after, Forest.walk_append, Forest.walk_append]
  | within left parent inner right ih =>
      rw [fill, before, after, Forest.walk_append, Forest.walk_cons, Node.depthFirst_eq, ih]
      simp only [List.append_assoc, List.cons_append]

theorem walk_fill_singleton (c : Clearing) (n : Node) :
    Forest.walk (c.fill [n]) = c.before [n] ++ n :: (Forest.walk n.children ++ c.after) := by
  rw [walk_fill, Forest.walk_cons, Node.depthFirst_eq, Forest.walk, List.append_nil,
    List.cons_append]

/-- The first node that fits is replaced in its place. -/
theorem replaceFirst?_fill {fits : Node → Bool} {c : Clearing} {t : Node}
    (instead : Node → Forest) (hfits : fits t = true)
    (hbefore : ∀ m ∈ c.before [t], fits m = false) :
    Forest.replaceFirst? fits instead (c.fill [t]) = some (c.fill (instead t)) := by
  induction c with
  | between left right =>
      rw [fill, Forest.replaceFirst?_append instead hbefore, List.singleton_append,
        Forest.replaceFirst?, if_pos hfits]
      rfl
  | within left parent inner right ih =>
      rw [before, List.forall_mem_append, List.forall_mem_cons] at hbefore
      rcases hbefore with ⟨hleft, hparent, hinner⟩
      rw [fill, Forest.replaceFirst?_append instead hleft, Forest.replaceFirst?,
        if_neg (by rw [hparent]; decide), ih hinner]
      rfl

end Clearing

namespace Forest

/-- The first node that fits stands in a clearing, with no such node before it. -/
theorem exists_clearing {fits : Node → Bool} {t : Node} {ns : Forest}
    (h : (walk ns).find? fits = some t) :
    ∃ c : Clearing, ns = c.fill [t] ∧ ∀ m ∈ c.before [t], fits m = false := by
  induction ns using Forest.induction with
  | nil =>
      rw [walk] at h
      exact absurd h (by simp only [List.find?_nil, reduceCtorEq, not_false_eq_true])
  | cons n ns below ih =>
      rw [walk_cons, Node.depthFirst_eq, List.cons_append] at h
      by_cases hn : fits n = true
      · rw [List.find?_cons_of_pos hn, Option.some.injEq] at h
        subst h
        exact ⟨.between [] ns, rfl, fun m hm => absurd hm List.not_mem_nil⟩
      · rw [List.find?_cons_of_neg hn, List.find?_append] at h
        rw [Bool.not_eq_true] at hn
        cases hbelow : (walk n.children).find? fits with
        | some s =>
            rw [hbelow, Option.some_or, Option.some.injEq] at h
            subst h
            rcases below hbelow with ⟨c, hchildren, hbefore⟩
            refine ⟨.within [] n c ns, ?_, List.forall_mem_cons.mpr ⟨?_, hbefore⟩⟩
            · rw [Clearing.fill, Node.with_children hchildren, List.nil_append]
            · rwa [Node.with_children hchildren]
        | none =>
            rw [hbelow, Option.none_or] at h
            rcases ih h with ⟨c, hns, hbefore⟩
            -- Nothing in the first tree fits, so all of it belongs to what comes before.
            refine ⟨c.behind [n], ?_, ?_⟩
            · rw [Clearing.fill_behind, ← hns, List.singleton_append]
            · rw [Clearing.before_behind, List.forall_mem_append, Forest.forall_walk_cons,
                Node.forall_depthFirst]
              refine ⟨⟨⟨hn, fun m hm => ?_⟩, fun m hm => ?_⟩, hbefore⟩
              · rw [← Bool.not_eq_true]
                exact List.find?_eq_none.mp hbelow m hm
              · rw [walk] at hm
                exact absurd hm List.not_mem_nil

/-- Either no node fits, or the first one that does stands in a clearing. -/
theorem search (fits : Node → Bool) (ns : Forest) :
    (∀ m ∈ walk ns, fits m = false) ∨
    ∃ (c : Clearing) (t : Node), (walk ns).find? fits = some t ∧ ns = c.fill [t] ∧
      fits t = true ∧ ∀ m ∈ c.before [t], fits m = false := by
  cases hfind : (walk ns).find? fits with
  | none => exact .inl fun m hm => Bool.eq_false_iff.mpr (List.find?_eq_none.mp hfind m hm)
  | some t =>
      rcases exists_clearing hfind with ⟨c, hns, hbefore⟩
      exact .inr ⟨c, t, rfl, hns, List.find?_some hfind, hbefore⟩

theorem exists_first {fits : Node → Bool} {ns : Forest} (h : ∃ m ∈ walk ns, fits m = true) :
    ∃ (c : Clearing) (t : Node), (walk ns).find? fits = some t ∧ ns = c.fill [t] ∧
      fits t = true ∧ ∀ m ∈ c.before [t], fits m = false := by
  rcases search fits ns with hnone | hfirst
  · rcases h with ⟨m, hm, hfits⟩
    rw [hnone m hm] at hfits
    exact absurd hfits Bool.false_ne_true
  · exact hfirst

end Forest

end WidgetSync
