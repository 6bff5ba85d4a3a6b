import WidgetSync.Node

/-!
# Relabeling as a Walk

Giving out new ids is a pass over the list of nodes.

`Forest.relabel` goes through a tree, but what it does to the ids depends on the
tree only through its pre-order. `choices` is the same pass over a list of nodes.
The ids of the new forest, in order, are what it yields, so a statement about the
ids of a whole forest is proved by induction on a list.

Nothing but ids changes. A node without its id and without what is below it is its
`shell`, and the shells of a forest stay what they are. That says nothing of which
node stands below which; the whole forest without its ids is `Forest.nameless`, and
that stays too. If every node keeps its id, the forest stays what it is.

## Main definitions

* `Forest.choices`: The ids chosen for some nodes, one after the other.
* `Node.shell`: What a node says besides its id and its children.
* `Forest.nameless`: A forest without its ids.

## Theorems

* `Forest.relabel_ids`: The new ids are the choices.
* `Forest.relabel_shells`: Nothing else changes.
* `Forest.nameless_relabel`: Nothing else changes, nor which node stands where.
* `Forest.relabel_forall`: What every id is and every chosen one is, the new ids are.
* `Forest.relabel_self`: If every node keeps its id, nothing changes.
-/

namespace WidgetSync

/-- What a node says besides its id and its children. -/
def Node.shell (n : Node) : Value × (Value × Value × Value × Value) × Fields :=
  (n.type, (n.x, n.y, n.width, n.height), n.properties)

namespace Forest

variable {σ : Type}

/-- The ids chosen for some nodes, one after the other. -/
def choices (choose : σ → Node → σ × Value) (s : σ) : List Node → σ × List Value
  | [] => (s, [])
  | n :: ns =>
    let chosen := choose s n
    let others := choices choose chosen.1 ns
    (others.1, chosen.2 :: others.2)

theorem choices_append (choose : σ → Node → σ × Value) (s : σ) (as bs : List Node) :
    choices choose s (as ++ bs) =
      ((choices choose (choices choose s as).1 bs).1,
        (choices choose s as).2 ++ (choices choose (choices choose s as).1 bs).2) := by
  induction as generalizing s with
  | nil => rfl
  | cons a as ih =>
      rw [List.cons_append, choices, choices, ih]
      rfl

theorem choices_length (choose : σ → Node → σ × Value) (s : σ) (ns : List Node) :
    (choices choose s ns).2.length = ns.length := by
  induction ns generalizing s with
  | nil => rfl
  | cons n ns ih => rw [choices, List.length_cons, List.length_cons, ih]

theorem walk_cons (n : Node) (ns : List Node) : walk (n :: ns) = n.depthFirst ++ walk ns := by
  rw [walk]

theorem walk_append (as bs : List Node) : walk (as ++ bs) = walk as ++ walk bs := by
  induction as with
  | nil => rw [List.nil_append, walk, List.nil_append]
  | cons a as ih => rw [List.cons_append, walk_cons, walk_cons, ih, List.append_assoc]

end Forest

theorem Node.depthFirst_eq (n : Node) : n.depthFirst = n :: Forest.walk n.children := by
  cases n
  rw [Node.depthFirst]

/-- What holds in a widget holds of the widget and below it. -/
theorem Node.forall_depthFirst {p : Node → Prop} {n : Node} :
    (∀ m ∈ n.depthFirst, p m) ↔ p n ∧ ∀ m ∈ Forest.walk n.children, p m := by
  rw [Node.depthFirst_eq, List.forall_mem_cons]

theorem Forest.forall_walk_cons {p : Node → Prop} {n : Node} {ns : List Node} :
    (∀ m ∈ walk (n :: ns), p m) ↔ (∀ m ∈ n.depthFirst, p m) ∧ ∀ m ∈ walk ns, p m := by
  rw [walk_cons, List.forall_mem_append]

theorem Forest.forall_walk_concat {p : Node → Prop} {ns : List Node} {n : Node} :
    (∀ m ∈ walk (ns ++ [n]), p m) ↔ (∀ m ∈ walk ns, p m) ∧ ∀ m ∈ n.depthFirst, p m := by
  rw [walk_append, List.forall_mem_append, walk_cons, walk, List.append_nil]

mutual

theorem Node.relabel_ids {σ : Type} (choose : σ → Node → σ × Value) (s : σ) :
    ∀ n : Node, (n.relabel choose s).1 = (Forest.choices choose s n.depthFirst).1 ∧
      (n.relabel choose s).2.depthFirst.map (·.id) = (Forest.choices choose s n.depthFirst).2
  | ⟨type, id, x, y, width, height, properties, children⟩ => by
    rw [Node.depthFirst, Forest.choices, Node.relabel]
    have hbelow := Forest.relabel_ids choose
      (choose s ⟨type, id, x, y, width, height, properties, children⟩).1 children
    refine ⟨hbelow.1, ?_⟩
    rw [Node.depthFirst, List.map_cons, hbelow.2]

/-- The new ids are the choices. -/
theorem Forest.relabel_ids {σ : Type} (choose : σ → Node → σ × Value) (s : σ) :
    ∀ ns : List Node,
      (Forest.relabel choose s ns).1 = (Forest.choices choose s (Forest.walk ns)).1 ∧
      (Forest.walk (Forest.relabel choose s ns).2).map (·.id)
        = (Forest.choices choose s (Forest.walk ns)).2
  | [] => by
    rw [Forest.relabel, Forest.walk, Forest.choices]
    exact ⟨rfl, rfl⟩
  | n :: ns => by
    have hfirst := Node.relabel_ids choose s n
    have hothers := Forest.relabel_ids choose (n.relabel choose s).1 ns
    rw [Forest.relabel, Forest.walk_cons, Forest.choices_append, ← hfirst.1]
    refine ⟨hothers.1, ?_⟩
    rw [Forest.walk_cons, List.map_append, hfirst.2, hothers.2]

end

mutual

theorem Node.relabel_shells {σ : Type} (choose : σ → Node → σ × Value) (s : σ) :
    ∀ n : Node, (n.relabel choose s).2.depthFirst.map Node.shell = n.depthFirst.map Node.shell
  | ⟨type, id, x, y, width, height, properties, children⟩ => by
    rw [Node.relabel, Node.depthFirst, Node.depthFirst, List.map_cons, List.map_cons,
      Forest.relabel_shells choose _ children]
    rfl

/-- Nothing but ids changes. -/
theorem Forest.relabel_shells {σ : Type} (choose : σ → Node → σ × Value) (s : σ) :
    ∀ ns : List Node, (Forest.walk (Forest.relabel choose s ns).2).map Node.shell
      = (Forest.walk ns).map Node.shell
  | [] => by rw [Forest.relabel]
  | n :: ns => by
    rw [Forest.relabel, Forest.walk_cons, Forest.walk_cons, List.map_append, List.map_append,
      Node.relabel_shells choose s n, Forest.relabel_shells choose _ ns]

end

/-- The forest without its ids: all else that it says, and which node stands where. -/
def Forest.nameless (nodes : Forest) : Forest :=
  (Forest.relabel (fun _ _ => ((), .null)) () nodes).2

mutual

theorem Node.nameless_relabel {σ : Type} (choose : σ → Node → σ × Value) (s : σ) : ∀ n : Node,
    (n.relabel choose s).2.relabel (fun _ _ => ((), .null)) ()
      = n.relabel (fun _ _ => ((), .null)) ()
  | ⟨type, id, x, y, width, height, properties, children⟩ => by
    rw [Node.relabel, Node.relabel, Node.relabel, Forest.relabel_nameless choose _ children]

theorem Forest.relabel_nameless {σ : Type} (choose : σ → Node → σ × Value) (s : σ) :
    ∀ ns : List Node, Forest.relabel (fun _ _ => ((), .null)) () (Forest.relabel choose s ns).2
      = Forest.relabel (fun _ _ => ((), .null)) () ns
  | [] => by rw [Forest.relabel]
  | n :: ns => by
    simp only [Forest.relabel, Node.nameless_relabel choose s n,
      Forest.relabel_nameless choose _ ns]

end

/-- Nothing but ids changes, nor which node stands where. -/
theorem Forest.nameless_relabel {σ : Type} (choose : σ → Node → σ × Value) (s : σ)
    (nodes : Forest) : nameless (relabel choose s nodes).2 = nameless nodes :=
  congrArg Prod.snd (relabel_nameless choose s nodes)

/-- What every id is and every chosen id is, the ids of the new forest are. -/
theorem Forest.relabel_forall {σ : Type} {choose : σ → Node → σ × Value} (p : Value → Prop)
    (hchoose : ∀ s n, p n.id → p (choose s n).2) (s : σ) {nodes : Forest}
    (h : ∀ n ∈ walk nodes, p n.id) : ∀ n ∈ walk (relabel choose s nodes).2, p n.id := by
  have hall : ∀ (ns : List Node) (s : σ), (∀ n ∈ ns, p n.id) →
      ∀ v ∈ (choices choose s ns).2, p v := by
    intro ns
    induction ns with
    | nil => exact fun _ _ v hv => absurd hv List.not_mem_nil
    | cons n ns ih =>
        intro s hns
        exact List.forall_mem_cons.mpr ⟨hchoose s n (hns n List.mem_cons_self),
          ih _ fun m hm => hns m (List.mem_cons_of_mem n hm)⟩
  intro n hn
  refine hall (walk nodes) s h n.id ?_
  rw [← (relabel_ids choose s nodes).2]
  exact List.mem_map_of_mem (f := fun n : Node => n.id) hn

mutual

theorem Node.relabel_self {σ : Type} (choose : σ → Node → σ × Value) (s : σ) :
    ∀ n : Node, (Forest.choices choose s n.depthFirst).2 = n.depthFirst.map (·.id) →
      (n.relabel choose s).2 = n
  | ⟨type, id, x, y, width, height, properties, children⟩ => by
    intro h
    rw [Node.depthFirst, Forest.choices, List.map_cons, List.cons.injEq] at h
    rw [Node.relabel, Forest.relabel_self choose _ children h.2, h.1]

/-- If every node keeps its id, nothing changes. -/
theorem Forest.relabel_self {σ : Type} (choose : σ → Node → σ × Value) (s : σ) :
    ∀ ns : List Node, (Forest.choices choose s (Forest.walk ns)).2 = (Forest.walk ns).map (·.id) →
      (Forest.relabel choose s ns).2 = ns
  | [] => by
    intro _
    rw [Forest.relabel]
  | n :: ns => by
    intro h
    rw [Forest.walk_cons, Forest.choices_append, List.map_append] at h
    -- The choices split where the walk does, since relabeling keeps the number of nodes.
    have hlength : (Forest.choices choose s n.depthFirst).2.length
        = (n.depthFirst.map (·.id)).length := by
      rw [← (Node.relabel_ids choose s n).2, List.length_map, List.length_map]
      have hshells := congrArg List.length (Node.relabel_shells choose s n)
      rwa [List.length_map, List.length_map] at hshells
    rcases List.append_inj h hlength with ⟨hfirst, hothers⟩
    rw [← (Node.relabel_ids choose s n).1] at hothers
    rw [Forest.relabel, Node.relabel_self choose s n hfirst,
      Forest.relabel_self choose _ ns hothers]

end

end WidgetSync
