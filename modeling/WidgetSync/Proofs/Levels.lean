import Mathlib.Data.List.Nodup
import Mathlib.Data.List.Pairwise
import Mathlib.Logic.Function.Iterate
import WidgetSync.Proofs.Clearing

/-!
# Trees Level by Level

The order by depth is the pre-order, sorted by depth.

A node has no name that tells it from its equals, so the nodes of a tree are told apart by where
they stand. A `Place` is a node with its address, the numbers of the children that lead to it, and
the places of a tree are listed in pre-order. That one order is another with the same nodes in it,
and which of two equal nodes comes first, are statements about places.

The queue goes through the tree in an order of its own. At any time it holds the end of one level
and the start of the next: when the trees that it holds have given up their roots, what is left in
it are their children, in order (`Forest.byDepth_append`). So it goes through the levels one after
the other. A level can be reached from above or from below, by taking the levels of the children or
the children of the level before, and the first of these is how the places of a tree are listed.

Each round of the queue takes one node out of it for good, so their number is that of the nodes.

## Main definitions

* `Place`, `Node.places`: A node with its address, and all of a tree in pre-order.
* `Node.at?`: The node at an address.
* `Node.level`: The nodes at a depth, in pre-order.
* `Forest.round`: One round of the queue.
* `sortedByKey`: A list sorted by a number, which leaves alone what has the same number.

## Theorems

* `Forest.byDepth_append`: The queue holds the end of a level and the start of the next.
* `Forest.size_round`, `Forest.rounds`: One round takes one node, and so the queue gets empty.
* `Node.mem_places`, `Node.nodup_places`: The places are the addresses at which there is a node,
  each of them once.
* `Node.places_at`: The places of the tree at an address are a stretch of all places.
* `Node.level_succ`, `Node.level_children`: A level from above and from below.
* `Node.byDepth_levels`: The queue goes through the levels one after the other.
* `breadthFirst_levels`: The order by depth is the pre-order, sorted by depth.
-/

namespace WidgetSync

/-- A node with the numbers of the children that lead to it. -/
structure Place where
  /-- The numbers of the children, from the root down. -/
  address : List Nat
  /-- The node. -/
  node : Node

namespace Place

/-- How far below the root it is. -/
def depth (p : Place) : Nat :=
  p.address.length

/-- The place in a tree that has the tree of the place at an address. -/
def under (above : List Nat) (p : Place) : Place :=
  ⟨above ++ p.address, p.node⟩

theorem under_nil : under [] = id := rfl

theorem under_under (a b : List Nat) : under a ∘ under b = under (a ++ b) := by
  funext p
  simp only [Function.comp, under, List.append_assoc]

theorem depth_under (i : Nat) (p : Place) : (p.under [i]).depth = p.depth + 1 := by
  rw [depth, under, List.singleton_append, List.length_cons, depth]

end Place

mutual

/-- The places of a tree in pre-order. -/
def Node.places : Node → List Place
  | ⟨type, id, x, y, width, height, properties, children⟩ =>
    ⟨[], ⟨type, id, x, y, width, height, properties, children⟩⟩ :: Forest.placesFrom 0 children

/-- The places of the trees of a forest in pre-order, when its first tree has a number. -/
def Forest.placesFrom (i : Nat) : List Node → List Place
  | [] => []
  | n :: ns => n.places.map (Place.under [i]) ++ Forest.placesFrom (i + 1) ns

end

/-- The node at an address, if there is one. -/
def Node.at? (n : Node) : List Nat → Option Node
  | [] => some n
  | i :: address => n.children[i]?.bind fun child => child.at? address

/-- One round of a queue: its first tree gives up the root to the nodes that were visited, and the
    children go to the end. -/
def Forest.round : Forest × List Node → Forest × List Node
  | ([], visited) => ([], visited)
  | (n :: queue, visited) => (queue ++ n.children, visited ++ [n])

/-! ### Sorting by a number -/

section

variable {α : Type} (key : α → Nat)

/-- The items of a list with numbers below a bound, in the order of these numbers. Items with the
    same number keep their order. -/
def sortedByKey (bound : Nat) (l : List α) : List α :=
  (List.range bound).flatMap fun k => l.filter fun a => key a == k

theorem sortedByKey_succ (bound : Nat) (l : List α) :
    sortedByKey key (bound + 1) l
      = sortedByKey key bound l ++ l.filter fun a => key a == bound := by
  rw [sortedByKey, List.range_succ, List.flatMap_append, List.flatMap_singleton]
  rfl

theorem sortedByKey_filter (bound : Nat) (l : List α) :
    (sortedByKey key bound l).Perm (l.filter fun a => key a < bound) := by
  induction bound with
  | zero => simp [sortedByKey]
  | succ bound ih =>
      -- The items below the next bound are those below this one and those at it.
      have hsplit := List.filter_append_perm (fun a => decide (key a < bound))
        (l.filter fun a => key a < bound + 1)
      have hbelow : ∀ a, (decide (key a < bound) && decide (key a < bound + 1))
          = decide (key a < bound) := by
        intro a
        rw [Bool.eq_iff_iff, Bool.and_eq_true, decide_eq_true_eq, decide_eq_true_eq]
        omega
      have hat : ∀ a, (!decide (key a < bound) && decide (key a < bound + 1))
          = (key a == bound) := by
        intro a
        rw [Bool.eq_iff_iff, Bool.and_eq_true, Bool.not_eq_true', decide_eq_false_iff_not,
          decide_eq_true_eq, beq_iff_eq]
        omega
      simp only [List.filter_filter, hbelow, hat] at hsplit
      rw [sortedByKey_succ]
      exact (ih.append_right _).trans hsplit

/-- Sorting keeps all items if the bound is high enough. -/
theorem sortedByKey_perm {bound : Nat} {l : List α} (h : ∀ a ∈ l, key a < bound) :
    (sortedByKey key bound l).Perm l := by
  have hall : l.filter (fun a => decide (key a < bound)) = l :=
    List.filter_eq_self.mpr fun a ha => decide_eq_true (h a ha)
  have hperm := sortedByKey_filter key bound l
  rwa [hall] at hperm

theorem key_of_mem_sortedByKey {bound : Nat} {l : List α} {a : α}
    (h : a ∈ sortedByKey key bound l) : key a < bound := by
  have hmem := (sortedByKey_filter key bound l).mem_iff.mp h
  exact of_decide_eq_true (List.mem_filter.mp hmem).2

/-- The numbers do not decrease. -/
theorem sortedByKey_pairwise (bound : Nat) (l : List α) :
    (sortedByKey key bound l).Pairwise fun a b => key a ≤ key b := by
  induction bound with
  | zero => exact .nil
  | succ bound ih =>
      rw [sortedByKey_succ, List.pairwise_append]
      refine ⟨ih, List.pairwise_of_forall_mem_list ?_, fun a ha b hb => ?_⟩
      · intro a ha b hb
        have hkey := beq_iff_eq.mp (List.mem_filter.mp ha).2
        exact Nat.le_of_eq (hkey.trans (beq_iff_eq.mp (List.mem_filter.mp hb).2).symm)
      · rw [beq_iff_eq.mp (List.mem_filter.mp hb).2]
        exact Nat.le_of_lt (key_of_mem_sortedByKey key ha)

/-- Items with the same number keep their order. -/
theorem filter_sortedByKey {bound : Nat} {l : List α} (h : ∀ a ∈ l, key a < bound) (k : Nat) :
    (sortedByKey key bound l).filter (fun a => key a == k) = l.filter fun a => key a == k := by
  have hrange : ∀ bound, (sortedByKey key bound l).filter (fun a => key a == k)
      = if k < bound then l.filter fun a => key a == k else [] := by
    intro bound
    induction bound with
    | zero => rfl
    | succ bound ih =>
        rw [sortedByKey_succ, List.filter_append, ih, List.filter_filter]
        by_cases hk : k = bound
        · subst hk
          rw [if_neg (Nat.lt_irrefl k), if_pos (Nat.lt_succ_self k), List.nil_append]
          exact List.filter_congr fun a _ => Bool.and_self _
        · have hnone : (l.filter fun a => key a == k && key a == bound) = [] := by
            refine List.filter_eq_nil_iff.mpr fun a _ hboth => hk ?_
            rw [Bool.and_eq_true, beq_iff_eq, beq_iff_eq] at hboth
            exact hboth.1.symm.trans hboth.2
          rw [hnone, List.append_nil]
          by_cases hlt : k < bound
          · rw [if_pos hlt, if_pos (Nat.lt_succ_of_lt hlt)]
          · rw [if_neg hlt, if_neg (by omega)]
  rw [hrange]
  by_cases hk : k < bound
  · rw [if_pos hk]
  · rw [if_neg hk]
    refine (List.filter_eq_nil_iff.mpr fun a ha heq => hk ?_).symm
    rw [← beq_iff_eq.mp heq]
    exact h a ha

end

/-! ### The queue -/

namespace Forest

/-- The queue holds the end of a level and the start of the next. -/
theorem byDepth_append (a b : Forest) :
    byDepth (a ++ b) = a ++ byDepth (b ++ a.flatMap Node.children) := by
  induction a generalizing b with
  | nil => rw [List.nil_append, List.flatMap_nil, List.append_nil, List.nil_append]
  | cons n a ih =>
      rw [List.cons_append, byDepth, List.append_assoc, ih, List.flatMap_cons, List.append_assoc,
        List.cons_append]

/-- The queue goes through the trees that it holds and then through their children. -/
theorem byDepth_level (ns : Forest) : byDepth ns = ns ++ byDepth (ns.flatMap Node.children) := by
  have h := byDepth_append ns []
  rwa [List.append_nil, List.nil_append] at h

/-- One round takes one node out of the queue. -/
theorem size_round (s : Forest × List Node) : size (round s).1 = size s.1 - 1 := by
  obtain ⟨queue, visited⟩ := s
  cases queue with
  | nil => rfl
  | cons n queue =>
      rw [round, size_append, size, Node.size_eq]
      omega

theorem size_rounds (k : Nat) (s : Forest × List Node) :
    size (round^[k] s).1 = size s.1 - k := by
  induction k generalizing s with
  | zero => rfl
  | succ k ih =>
      rw [Function.iterate_succ_apply, ih, size_round]
      omega

theorem eq_nil_of_size {ns : Forest} (h : size ns = 0) : ns = [] := by
  cases ns with
  | nil => rfl
  | cons n ns =>
      rw [size, Node.size_eq] at h
      omega

/-- The queue is empty after as many rounds as there are nodes, and not before. -/
theorem queue_empty_iff (k : Nat) (s : Forest × List Node) :
    (round^[k] s).1 = [] ↔ size s.1 ≤ k := by
  have hsize := size_rounds k s
  constructor
  · intro h
    rw [h, size] at hsize
    omega
  · intro h
    exact eq_nil_of_size (by omega)

/-- The rounds of a queue visit its nodes in the order by depth. -/
theorem rounds (queue : Forest) (visited : List Node) :
    round^[size queue] (queue, visited) = ([], visited ++ byDepth queue) := by
  -- The induction is on the number of nodes, which is that of the rounds.
  induction hn : size queue generalizing queue visited with
  | zero =>
      rw [eq_nil_of_size hn, byDepth, List.append_nil]
      rfl
  | succ k ih =>
      cases queue with
      | nil => exact absurd hn (by rw [size]; omega)
      | cons n queue =>
          have hrest : size (queue ++ n.children) = k := by
            rw [size, Node.size_eq] at hn
            rw [size_append]
            omega
          rw [Function.iterate_succ_apply, round, ih _ _ hrest, byDepth, List.append_assoc,
            List.singleton_append]

/-! ### The pre-order -/

theorem walk_eq_flatMap (ns : Forest) : walk ns = ns.flatMap Node.depthFirst := by
  induction ns with
  | nil => rw [walk, List.flatMap_nil]
  | cons n ns ih => rw [walk_cons, List.flatMap_cons, ih]

theorem length_walk (ns : Forest) : (walk ns).length = size ns := by
  induction ns using Forest.induction with
  | nil => rw [walk, size, List.length_nil]
  | cons n ns below ih =>
      rw [walk_cons, List.length_append, Node.depthFirst_eq, List.length_cons, below, ih, size,
        Node.size_eq]
      omega

theorem placesFrom_cons (i : Nat) (n : Node) (ns : Forest) :
    placesFrom i (n :: ns) = n.places.map (Place.under [i]) ++ placesFrom (i + 1) ns := by
  rw [placesFrom]

end Forest

theorem Node.places_eq (n : Node) : n.places = ⟨[], n⟩ :: Forest.placesFrom 0 n.children := by
  cases n
  rw [Node.places]

theorem Node.length_depthFirst (n : Node) : n.depthFirst.length = n.size := by
  rw [Node.depthFirst_eq, List.length_cons, Forest.length_walk, Node.size_eq]
  omega

namespace Forest

theorem node_under (i : Nat) (ps : List Place) :
    (ps.map (Place.under [i])).map Place.node = ps.map Place.node :=
  List.map_map ..

theorem placesFrom_nodes (i : Nat) (ns : Forest) :
    (placesFrom i ns).map Place.node = walk ns := by
  induction ns using Forest.induction generalizing i with
  | nil => rw [placesFrom, walk, List.map_nil]
  | cons n ns below ih =>
      rw [placesFrom_cons, List.map_append, node_under, n.places_eq, List.map_cons, below, ih,
        walk_cons, n.depthFirst_eq]

theorem mem_placesFrom {i : Nat} {ns : Forest} {p : Place} :
    p ∈ placesFrom i ns
      ↔ ∃ (j : Nat) (child : Node), ns[j]? = some child ∧
          ∃ q ∈ child.places, q.under [i + j] = p := by
  induction ns generalizing i with
  | nil => simp [placesFrom]
  | cons n ns ih =>
      rw [placesFrom_cons, List.mem_append, ih, List.mem_map]
      constructor
      · rintro (hfirst | ⟨j, child, hchild, q, hq, rfl⟩)
        · exact ⟨0, n, rfl, hfirst⟩
        · exact ⟨j + 1, child, hchild, q, hq, by rw [Nat.add_assoc, Nat.add_comm 1 j]⟩
      · rintro ⟨j, child, hchild, q, hq, rfl⟩
        cases j with
        | zero =>
            obtain rfl := Option.some.inj hchild
            exact .inl ⟨q, hq, rfl⟩
        | succ j => exact .inr ⟨j, child, hchild, q, hq, by rw [Nat.add_assoc, Nat.add_comm 1 j]⟩

/-- The places of a tree are a stretch of the places of its forest. -/
theorem placesFrom_split {i j : Nat} {ns : Forest} {child : Node} (h : ns[j]? = some child) :
    ∃ before after,
      placesFrom i ns = before ++ child.places.map (Place.under [i + j]) ++ after := by
  induction ns generalizing i j with
  | nil => exact absurd h (by simp)
  | cons n ns ih =>
      cases j with
      | zero =>
          obtain rfl := Option.some.inj h
          exact ⟨[], placesFrom (i + 1) ns, placesFrom_cons i n ns⟩
      | succ j =>
          obtain ⟨before, after, heq⟩ := @ih (i + 1) j h
          refine ⟨n.places.map (Place.under [i]) ++ before, after, ?_⟩
          rw [placesFrom_cons, heq, Nat.add_assoc, Nat.add_comm 1 j]
          simp only [List.append_assoc]

end Forest

namespace Node

/-- The places of a tree are the addresses at which there is a node. -/
theorem mem_places {n : Node} {p : Place} : p ∈ n.places ↔ n.at? p.address = some p.node := by
  obtain ⟨address, m⟩ := p
  induction address generalizing n with
  | nil =>
      rw [places_eq, List.mem_cons, at?, Option.some.injEq]
      constructor
      · rintro (heq | hbelow)
        · exact (congrArg Place.node heq).symm
        · -- What is below the root has an address that is not empty.
          obtain ⟨j, child, -, q, -, heq⟩ := Forest.mem_placesFrom.mp hbelow
          exact absurd (congrArg Place.address heq) (by simp [Place.under])
      · rintro rfl
        exact .inl rfl
  | cons i address ih =>
      rw [places_eq, List.mem_cons, at?, Option.bind_eq_some_iff, Forest.mem_placesFrom]
      constructor
      · rintro (heq | ⟨j, child, hchild, q, hq, heq⟩)
        · exact absurd (congrArg Place.address heq) (by simp)
        · obtain ⟨haddress, rfl⟩ := Place.mk.inj heq
          rw [List.singleton_append, List.cons.injEq, Nat.zero_add] at haddress
          obtain ⟨rfl, rfl⟩ := haddress
          exact ⟨child, hchild, ih.mp hq⟩
      · rintro ⟨child, hchild, hat⟩
        exact .inr ⟨i, child, hchild, ⟨address, m⟩, ih.mpr hat, by rw [Nat.zero_add]; rfl⟩

/-- The places of the tree at an address are a stretch of the places of the whole. -/
theorem places_at {n m : Node} {address : List Nat} (h : n.at? address = some m) :
    ∃ before after, n.places = before ++ m.places.map (Place.under address) ++ after := by
  induction address generalizing n with
  | nil =>
      obtain rfl := Option.some.inj h
      exact ⟨[], [], by rw [Place.under_nil, List.map_id, List.nil_append, List.append_nil]⟩
  | cons i address ih =>
      obtain ⟨child, hchild, hat⟩ := Option.bind_eq_some_iff.mp h
      obtain ⟨before, after, heq⟩ := ih hat
      obtain ⟨front, behind, hsplit⟩ := @Forest.placesFrom_split 0 i n.children child hchild
      refine ⟨⟨[], n⟩ :: front ++ before.map (Place.under [i]),
        after.map (Place.under [i]) ++ behind, ?_⟩
      rw [places_eq, hsplit, heq, Nat.zero_add]
      simp only [List.map_append, List.map_map, Place.under_under, List.cons_append,
        List.nil_append, List.append_assoc]

end Node

theorem Forest.nodup_placesFrom (i : Nat) (ns : Forest) :
    ((placesFrom i ns).map Place.address).Nodup := by
  induction ns using Forest.induction generalizing i with
  | nil =>
      rw [placesFrom]
      exact List.nodup_nil
  | cons n ns below ih =>
      -- The numbers of the trees tell the addresses apart, and below a number the rest does.
      have hroot : (n.places.map Place.address).Nodup := by
        rw [Node.places_eq, List.map_cons, List.nodup_cons]
        refine ⟨fun hmem => ?_, below 0⟩
        obtain ⟨p, hp, haddress⟩ := List.mem_map.mp hmem
        obtain ⟨j, child, -, q, -, rfl⟩ := mem_placesFrom.mp hp
        exact absurd haddress (by simp [Place.under])
      rw [placesFrom_cons, List.map_append, List.map_map, List.nodup_append]
      refine ⟨?_, ih (i + 1), ?_⟩
      · rw [show Place.address ∘ Place.under [i] = (i :: ·) ∘ Place.address from rfl,
          ← List.map_map]
        exact hroot.map (List.cons_injective (a := i))
      · intro a ha b hb heq
        obtain ⟨p, -, rfl⟩ := List.mem_map.mp ha
        obtain ⟨q, hq, rfl⟩ := List.mem_map.mp hb
        obtain ⟨j, child, -, r, -, rfl⟩ := mem_placesFrom.mp hq
        have hnumber := (List.cons.inj heq).1
        omega

theorem Node.nodup_places (n : Node) : (n.places.map Place.address).Nodup := by
  have h := Forest.nodup_placesFrom 0 [n]
  rw [Forest.placesFrom_cons, Forest.placesFrom, List.append_nil, List.map_map] at h
  exact List.Nodup.of_map (0 :: ·) (by rwa [List.map_map])

/-! ### Levels -/

/-- The nodes at a depth, in pre-order. -/
def Node.level (n : Node) (depth : Nat) : List Node :=
  (n.places.filter fun p => p.depth == depth).map Place.node

theorem Forest.placesFrom_level (i depth : Nat) (ns : Forest) :
    ((placesFrom i ns).filter fun p => p.depth == depth + 1).map Place.node
      = ns.flatMap (·.level depth) := by
  induction ns generalizing i with
  | nil =>
      rw [placesFrom]
      rfl
  | cons n ns ih =>
      have hdeeper : (fun p : Place => p.depth == depth + 1) ∘ Place.under [i]
          = fun p => p.depth == depth := by
        funext p
        rw [Function.comp, Place.depth_under, Bool.eq_iff_iff, beq_iff_eq, beq_iff_eq]
        omega
      rw [placesFrom_cons, List.filter_append, List.map_append, ih, List.filter_map, hdeeper,
        node_under, List.flatMap_cons, Node.level]

theorem Forest.placesFrom_roots (i : Nat) (ns : Forest) :
    (placesFrom i ns).filter (fun p => p.depth == 0) = [] := by
  refine List.filter_eq_nil_iff.mpr fun p hp hdepth => ?_
  obtain ⟨j, child, -, q, -, rfl⟩ := mem_placesFrom.mp hp
  rw [Place.depth_under] at hdepth
  exact absurd (beq_iff_eq.mp hdepth) (Nat.succ_ne_zero _)

namespace Node

theorem level_zero (n : Node) : n.level 0 = [n] := by
  rw [level, places_eq, List.filter_cons_of_pos (by rfl), Forest.placesFrom_roots]
  rfl

/-- A level from above: it consists of the levels of the children. -/
theorem level_succ (n : Node) (depth : Nat) :
    n.level (depth + 1) = n.children.flatMap (·.level depth) := by
  rw [level, places_eq, List.filter_cons_of_neg (by rw [Place.depth]; simp),
    Forest.placesFrom_level]

/-- A level from below: it consists of the children of the level before. -/
theorem level_children (n : Node) (depth : Nat) :
    n.level (depth + 1) = (n.level depth).flatMap children := by
  induction depth generalizing n with
  | zero =>
      rw [level_succ, level_zero, List.flatMap_singleton]
      simp only [level_zero, List.flatMap_singleton']
  | succ depth ih =>
      rw [level_succ, level_succ, List.flatMap_assoc]
      exact List.flatMap_congr fun child _ => ih child

/-- The queue goes through the levels one after the other. -/
theorem byDepth_levels (n : Node) (bound : Nat) :
    n.breadthFirst = (List.range bound).flatMap n.level ++ Forest.byDepth (n.level bound) := by
  induction bound with
  | zero => rw [level_zero]; rfl
  | succ bound ih =>
      rw [ih, Forest.byDepth_level, ← level_children, List.range_succ, List.flatMap_append,
        List.flatMap_singleton, List.append_assoc]

end Node

theorem Forest.depth_le_size {i : Nat} {ns : Forest} {p : Place} (h : p ∈ placesFrom i ns) :
    p.depth ≤ size ns := by
  induction ns using Forest.induction generalizing i p with
  | nil => exact absurd h (by rw [placesFrom]; exact List.not_mem_nil)
  | cons n ns below ih =>
      rw [size, Node.size_eq]
      rw [placesFrom_cons, List.mem_append, List.mem_map, Node.places_eq] at h
      rcases h with ⟨q, hq, rfl⟩ | h
      · rw [Place.depth_under]
        rcases List.mem_cons.mp hq with rfl | hq
        · rw [Place.depth, List.length_nil]
          omega
        · have hdepth := below hq
          omega
      · have hdepth := ih h
        omega

namespace Node

/-- A tree has more nodes than any of them is deep. -/
theorem depth_lt_size {n : Node} {p : Place} (h : p ∈ n.places) : p.depth < n.size := by
  rw [size_eq]
  rw [places_eq] at h
  rcases List.mem_cons.mp h with rfl | h
  · rw [Place.depth, List.length_nil]
    omega
  · have hdepth := Forest.depth_le_size h
    omega

/-- The places of a tree, sorted by depth. -/
def placesByDepth (n : Node) : List Place :=
  sortedByKey Place.depth n.size n.places

theorem placesByDepth_nodes (n : Node) : n.placesByDepth.map Place.node = n.breadthFirst := by
  -- No node is as deep as there are nodes.
  have hbelow : n.level n.size = [] := by
    rw [level, List.map_eq_nil_iff, List.filter_eq_nil_iff]
    intro p hp hdepth
    exact absurd (beq_iff_eq.mp hdepth) (Nat.ne_of_lt (depth_lt_size hp))
  rw [byDepth_levels n n.size, hbelow, Forest.byDepth, List.append_nil, placesByDepth, sortedByKey,
    List.map_flatMap]
  rfl

end Node

/-- The order by depth is the pre-order, sorted by depth. -/
theorem breadthFirst_levels (n : Node) :
    (n.depthFirst = n :: n.children.flatMap Node.depthFirst ∧
      n.places.map Place.node = n.depthFirst ∧
      (n.places.map Place.address).Nodup ∧
      (∀ p : Place, p ∈ n.places ↔ n.at? p.address = some p.node) ∧
      ∀ p ∈ n.places, ∃ before after,
        n.places = before ++ p.node.places.map (Place.under p.address) ++ after) ∧
    ((∀ k, (Forest.round^[k] ([n], [])).1 = [] ↔ n.depthFirst.length ≤ k) ∧
      Forest.round^[n.depthFirst.length] ([n], []) = ([], n.breadthFirst)) ∧
    n.breadthFirst.Perm n.depthFirst ∧
    ∃ order : List Place, order.map Place.node = n.breadthFirst ∧ order.Perm n.places ∧
      (order.Pairwise fun p q => p.depth ≤ q.depth) ∧
      ∀ depth, order.filter (·.depth == depth) = n.places.filter (·.depth == depth) := by
  have hnodes : n.places.map Place.node = n.depthFirst := by
    rw [n.places_eq, List.map_cons, Forest.placesFrom_nodes, n.depthFirst_eq]
  have hsize : Forest.size [n] = n.depthFirst.length := by
    rw [n.length_depthFirst, Forest.size, Forest.size, Nat.add_zero]
  have hperm : n.placesByDepth.Perm n.places :=
    sortedByKey_perm Place.depth fun _ => Node.depth_lt_size
  refine ⟨⟨?_, hnodes, n.nodup_places, fun p => Node.mem_places, fun p hp => ?_⟩, ⟨fun k => ?_, ?_⟩,
    ?_, n.placesByDepth, n.placesByDepth_nodes, hperm, sortedByKey_pairwise _ _ _,
    filter_sortedByKey _ fun _ => Node.depth_lt_size⟩
  · rw [n.depthFirst_eq, Forest.walk_eq_flatMap]
  · exact Node.places_at (Node.mem_places.mp hp)
  · rw [Forest.queue_empty_iff, hsize]
  · rw [← hsize, Forest.rounds, List.nil_append]
    rfl
  · rw [← hnodes, ← n.placesByDepth_nodes]
    exact hperm.map Place.node

/-- A row with two labels, to be put beside another label. -/
def labelRow : Node :=
  { type := .text "Row", id := .text "row",
    children := [{ type := .text "Label", id := .text "a" },
      { type := .text "Label", id := .text "b" }] }

/-- A column with a row of labels and a label. -/
def labelColumn : Node :=
  { type := .text "Column", id := .text "column",
    children := [labelRow, { type := .text "Label", id := .text "c" }] }

/-- The labels of the row come before the label of the column in pre-order, and behind it in the
    order by depth. -/
theorem labelColumn_levels :
    (⟨[0], labelRow⟩ : Place) ∈ labelColumn.places ∧
    (∃ before after, labelColumn.places
      = before ++ labelRow.places.map (Place.under [0]) ++ after) ∧
    labelColumn.depthFirst.map (·.id.asText?) = ["column", "row", "a", "b", "c"].map some ∧
    labelColumn.breadthFirst.map (·.id.asText?) = ["column", "row", "c", "a", "b"].map some := by
  obtain ⟨⟨-, -, -, hplaces, hstretch⟩, ⟨-, hrounds⟩, -⟩ := breadthFirst_levels labelColumn
  have hrow : (⟨[0], labelRow⟩ : Place) ∈ labelColumn.places := (hplaces _).mpr rfl
  refine ⟨hrow, hstretch _ hrow, by decide, ?_⟩
  -- The queue itself is run round by round.
  have hvisited := congrArg (fun s => s.2.map (·.id.asText?)) hrounds
  exact hvisited.symm.trans (by decide)

end WidgetSync
