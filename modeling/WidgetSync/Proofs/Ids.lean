import Mathlib.Data.List.Nodup
import WidgetSync.Node.Ids
import WidgetSync.Proofs.Characters
import WidgetSync.Proofs.Relabeling

/-!
# Safe and Distinct Ids

After ids were given out, every id is safe and no two are equal.

Names with a number behind them differ from number to number, since the number can
be read off the end. So among one name more than there are taken names one is free,
and the search for it, which tries just that many, always finds one. This is the
only place where counting is needed; the two passes over a forest then keep lists
of names free of repetitions.

The first pass settles the ids that are there, the second names the other nodes.
A node that the second pass names gets an id that no node of the forest has, also
none that comes later, because the taken names are those of the whole forest. This
holds whatever the ids were before; the types alone have to be texts, since a node
without an id is named after its type.

A forest whose ids are safe and differ already stays as it is. That is what makes ids
survive being written and read. A forest is `WellNamed` if, besides, all its ids are
plain texts and none is source text, as it is with those that were read.

## Main definitions

* `Search`: A search among numbered names, from its start to its end.
* `Keyed`: The ids of some nodes are safe and no two are equal.
* `Forest.WellNamed`: The same of a forest with plain texts for ids.

## Theorems

* `isSafeId_safeId`: An id made safe is safe.
* `firstFree_not_mem`, `search_firstFree`: The search ends, at the first free name.
* `uniqueId_not_mem`, `uniqueId_self`: A unique id is free, and a free one is kept.
* `Forest.assignIds_fault`, `Forest.assignIds_keyed`: Ids can be given out, and then they are
  safe and differ.
* `Forest.assignIds_wellNamed`: After ids were given out a forest is well named.
* `Forest.assignIds_self`: A forest whose ids are safe and differ stays as it is.
-/

namespace WidgetSync

theorem isIdChar_underscore : isIdChar '_' = true := by decide

/-- An id made safe is safe. -/
theorem isSafeId_safeId (s : String) : isSafeId (safeId s) = true := by
  have hall : ∀ cs : List Char, ((cs.map fun c => if isIdChar c then c else '_').all isIdChar)
      = true := by
    intro cs
    rw [List.all_map, List.all_eq_true]
    intro c _
    rw [Function.comp]
    split
    · assumption
    · exact isIdChar_underscore
  have hmapped := hall s.toList
  unfold safeId
  split
  · decide
  · rename_i c cs heq
    rw [heq, List.all_cons, Bool.and_eq_true] at hmapped
    by_cases hdigit : c.isDigit = true
    · -- A digit is put behind a mark that may come first.
      rw [if_pos hdigit, isSafeId, String.toList_ofList]
      simp only [List.all_cons, hmapped, isIdChar_underscore, Bool.and_true, Bool.true_and]
      decide
    · rw [if_neg hdigit, isSafeId, String.toList_ofList]
      simp only [hmapped, hdigit, Bool.not_false, Bool.and_true]

theorem isSafeId_ne_empty {s : String} (h : isSafeId s = true) : s.isEmpty = false := by
  rw [Bool.eq_false_iff, ne_eq, String.isEmpty_iff]
  rintro rfl
  exact absurd h (by decide)

theorem toString_nat_toList (n : Nat) : (toString n).toList = Nat.toDigits 10 n :=
  Nat.toList_repr

theorem toDigits_injective {m n : Nat} (h : Nat.toDigits 10 m = Nat.toDigits 10 n) : m = n := by
  rw [← Text.digitsValue_toDigits m, ← Text.digitsValue_toDigits n, h]

/-- The search finds a name that is not taken. -/
theorem firstFree_not_mem (name : Nat → String) (hname : ∀ m n, name m = name n → m = n)
    (taken : List String) (n : Nat) : name (firstFree name taken taken.length n) ∉ taken := by
  -- A search in vain would mean that all the names it tried are taken.
  have hvain : ∀ tries n, name (firstFree name taken tries n) ∈ taken →
      ∀ k, n ≤ k → k ≤ n + tries → name k ∈ taken := by
    intro tries
    induction tries with
    | zero =>
        intro n h k hlow hhigh
        rw [firstFree] at h
        rwa [show k = n by omega]
    | succ tries ih =>
        intro n h k hlow hhigh
        rw [firstFree] at h
        split at h
        · rename_i htaken
          by_cases hk : k = n
          · rw [hk]
            exact List.contains_iff_mem.mp htaken
          · exact ih (n + 1) h k (by omega) (by omega)
        · rename_i hfree
          exact absurd (List.contains_iff_mem.mpr h) hfree
  intro h
  -- These are more names than are taken, and they all differ.
  have hsubset : (List.range' n (taken.length + 1)).map name ⊆ taken := by
    intro s hs
    rcases List.mem_map.mp hs with ⟨k, hk, rfl⟩
    rw [List.mem_range'_1] at hk
    exact hvain taken.length n h k hk.1 (by omega)
  have hnodup : ((List.range' n (taken.length + 1)).map name).Nodup := by
    rw [List.Nodup, List.pairwise_map]
    exact List.Pairwise.imp (R := (· ≠ ·)) (fun hne heq => hne (hname _ _ heq)) List.nodup_range'
  have hlength := hnodup.length_le_of_subset hsubset
  rw [List.length_map, List.length_range'] at hlength
  omega

/-- The search that starts at a number ends at another: it passes by names that are taken, one
    number after the other, and stops at the first that is not. -/
inductive Search (name : Nat → String) (taken : List String) : Nat → Nat → Prop where
  /-- The name is free. -/
  | stop {n : Nat} (hfree : name n ∉ taken) : Search name taken n n
  /-- The name is taken, and the search goes on with the next number. -/
  | pass {n last : Nat} (htaken : name n ∈ taken) (hnext : Search name taken (n + 1) last) :
      Search name taken n last

/-- A search ends if the names differ, and its end is the number that `firstFree` finds. -/
theorem search_firstFree (name : Nat → String) (hname : ∀ m n, name m = name n → m = n)
    (taken : List String) (n : Nat) :
    Search name taken n (firstFree name taken taken.length n) := by
  have hends : ∀ tries n, name (firstFree name taken tries n) ∉ taken →
      Search name taken n (firstFree name taken tries n) := by
    intro tries
    induction tries with
    | zero =>
        intro n h
        rw [firstFree] at h ⊢
        exact .stop h
    | succ tries ih =>
        intro n h
        rw [firstFree] at h ⊢
        split at h
        · rename_i htaken
          rw [if_pos htaken]
          exact .pass (List.contains_iff_mem.mp htaken) (ih (n + 1) h)
        · rename_i hfree
          rw [if_neg hfree]
          exact .stop h
  exact hends taken.length n (firstFree_not_mem name hname taken n)

theorem numbered_toList (candidate : String) (n : Nat) :
    (s!"{candidate}_{n}").toList = candidate.toList ++ '_' :: Nat.toDigits 10 n := by
  have hform : s!"{candidate}_{n}" = candidate ++ "_" ++ toString n := rfl
  have hmark : "_".toList = ['_'] := by decide
  rw [hform, String.toList_append, String.toList_append, hmark, toString_nat_toList,
    List.append_assoc, List.singleton_append]

/-- Numbered names differ because their numbers do. -/
theorem numbered_injective (candidate : String) {m n : Nat}
    (h : s!"{candidate}_{m}" = s!"{candidate}_{n}") : m = n := by
  have hlists := congrArg String.toList h
  rw [numbered_toList, numbered_toList] at hlists
  exact toDigits_injective (List.cons.inj (List.append_cancel_left hlists)).2

/-- An id that is made unique is not taken. -/
theorem uniqueId_not_mem (candidate : String) (taken : List String) :
    uniqueId candidate taken ∉ taken := by
  unfold uniqueId
  simp only
  split
  · exact firstFree_not_mem (fun n => s!"{candidate}_{n}") (fun _ _ h => numbered_injective _ h)
      taken 2
  · rename_i hfree
    intro hmem
    exact hfree (List.contains_iff_mem.mpr hmem)

/-- A free id is kept. -/
theorem uniqueId_self {candidate : String} {taken : List String} (h : candidate ∉ taken) :
    uniqueId candidate taken = candidate := by
  unfold uniqueId
  rw [if_neg]
  intro hcontains
  exact h (List.contains_iff_mem.mp hcontains)

theorem isIdChar_of_digit {c : Char} (h : c.isDigit = true) : isIdChar c = true := by
  rw [isIdChar, Char.isAlphanum, h, Bool.or_true, Bool.true_or]

theorem isSafeId_append {s : String} (cs : List Char) (h : isSafeId s = true)
    (hcs : ∀ c ∈ cs, isIdChar c = true) : isSafeId (String.ofList (s.toList ++ cs)) = true := by
  unfold isSafeId at h ⊢
  rw [String.toList_ofList]
  cases hs : s.toList with
  | nil =>
      rw [hs] at h
      exact absurd h (by decide)
  | cons d ds =>
      rw [hs] at h
      simp only [Bool.and_eq_true] at h
      simp only [List.cons_append, List.all_append, Bool.and_eq_true]
      exact ⟨h.1, h.2, List.all_eq_true.mpr hcs⟩

/-- A safe id stays safe when it is made unique. -/
theorem isSafeId_uniqueId {candidate : String} (taken : List String)
    (h : isSafeId candidate = true) : isSafeId (uniqueId candidate taken) = true := by
  unfold uniqueId
  simp only
  split
  · generalize firstFree _ taken taken.length 2 = n
    have hsafe := isSafeId_append ('_' :: Nat.toDigits 10 n) h (by
      intro c hc
      rcases List.mem_cons.mp hc with rfl | hc
      · exact isIdChar_underscore
      · exact isIdChar_of_digit (Nat.isDigit_of_mem_toDigits (by omega) (by omega) hc))
    rw [← numbered_toList, String.ofList_toList] at hsafe
    exact hsafe
  · exact h

theorem safeId_toList (s : String) :
    (safeId s).toList =
      match s.toList.map fun c => if isIdChar c then c else '_' with
      | [] => ['_']
      | c :: cs => if c.isDigit then '_' :: c :: cs else c :: cs := by
  unfold safeId
  cases s.toList.map fun c => if isIdChar c then c else '_' with
  | nil => decide
  | cons c cs => exact String.toList_ofList

/-- The name of a type ends in its number. -/
theorem typeName_toList (type : String) :
    ∃ front : List Char, ∀ n, (typeName type n).toList = front ++ Nat.toDigits 10 n := by
  have hdigits : ∀ n, (Nat.toDigits 10 n).map (fun c => if isIdChar c then c else '_')
      = Nat.toDigits 10 n := by
    intro n
    refine (List.map_congr_left fun c hc => ?_).trans (List.map_id _)
    rw [if_pos (isIdChar_of_digit (Nat.isDigit_of_mem_toDigits (by omega) (by omega) hc)), id]
  have hlist : ∀ n, (String.ofList (Text.lowerCase type.toList) ++ toString n).toList.map
      (fun c => if isIdChar c then c else '_')
      = (Text.lowerCase type.toList).map (fun c => if isIdChar c then c else '_')
        ++ Nat.toDigits 10 n := by
    intro n
    rw [String.toList_append, String.toList_ofList, toString_nat_toList, List.map_append, hdigits]
  -- The mark in front of a leading digit depends on the type alone if the type leaves a
  -- character at all, and on the number if not; a number always starts with a digit.
  cases hfront : (Text.lowerCase type.toList).map (fun c => if isIdChar c then c else '_') with
  | nil =>
      refine ⟨['_'], fun n => ?_⟩
      rw [typeName, safeId_toList, hlist, hfront, List.nil_append]
      cases hds : Nat.toDigits 10 n with
      | nil => exact absurd hds Nat.toDigits_ne_nil
      | cons d ds =>
          have hd : d.isDigit = true :=
            Nat.isDigit_of_mem_toDigits (n := n) (b := 10) (by omega) (by omega)
              (by rw [hds]; exact List.mem_cons_self)
          simp only [hd, if_true, List.cons_append, List.nil_append]
  | cons c cs =>
      by_cases hc : c.isDigit = true
      · refine ⟨'_' :: c :: cs, fun n => ?_⟩
        rw [typeName, safeId_toList, hlist, hfront]
        simp only [List.cons_append, hc, if_true]
      · refine ⟨c :: cs, fun n => ?_⟩
        rw [typeName, safeId_toList, hlist, hfront]
        simp only [List.cons_append, hc, Bool.false_eq_true, if_false]

theorem typeName_injective (type : String) {m n : Nat} (h : typeName type m = typeName type n) :
    m = n := by
  rcases typeName_toList type with ⟨front, hfront⟩
  have hlists := congrArg String.toList h
  rw [hfront, hfront] at hlists
  exact toDigits_injective (List.append_cancel_left hlists)

/-- Whether a part is there for all of some things can be computed. -/
theorem exists_of_all_isSome {α β : Type} {f : α → Option β} {as : List α}
    (h : as.all (fun a => (f a).isSome) = true) : ∀ a ∈ as, ∃ b, f a = some b :=
  fun a ha => Option.isSome_iff_exists.mp (List.all_eq_true.mp h a ha)

namespace Value

/-- The name that an id is: a text that does not count as empty. -/
def name? (v : Value) : Option String :=
  if v.truth then v.asText? else none

/-- The values with the characters of a text are the text and source text. -/
theorem eq_of_asText? {v : Value} {s : String} (h : v.asText? = some s) :
    v = .text s ∨ v = .raw s := by
  cases v <;> simp only [asText?, reduceCtorEq, Option.some.injEq] at h
  · exact .inl (congrArg Value.text h)
  · exact .inr (congrArg Value.raw h)

theorem asText?_of_same {v w : Value} {s : String} (h : Value.same v w = true)
    (hw : w.asText? = some s) : v.asText? = some s := by
  rcases eq_of_asText? hw with rfl | rfl
  · cases v <;> simp only [same, Bool.false_eq_true, beq_iff_eq] at h
    · rw [h, asText?]
    · rw [h, asText?]
  · cases v <;> simp only [same, Bool.false_eq_true, beq_iff_eq] at h
    · rw [h, asText?]
    · rw [h, asText?]

theorem same_of_asText? {v : Value} {s : String} (h : v.asText? = some s) :
    Value.same v (.text s) = true := by
  rcases eq_of_asText? h with rfl | rfl <;> rw [Value.same, beq_self_eq_true]

theorem canName_of_asText? {v : Value} {s : String} (h : v.asText? = some s) :
    v.canName = true := by
  rcases eq_of_asText? h with rfl | rfl <;> rfl

theorem plain_of_asText? {v : Value} {s : String} (h : v.asText? = some s) : v.plain = s := by
  rcases eq_of_asText? h with rfl | rfl <;> rfl

theorem truth_of_safe {v : Value} {s : String} (h : v.asText? = some s)
    (hsafe : isSafeId s = true) : v.truth = true := by
  have hne := isSafeId_ne_empty hsafe
  rcases eq_of_asText? h with rfl | rfl <;> rw [truth, hne] <;> rfl

theorem name?_of_empty {v : Value} (h : v.truth = false) : v.name? = none := by
  rw [name?, h, if_neg Bool.false_ne_true]

theorem name?_of_safe {v : Value} {s : String} (h : v.asText? = some s)
    (hsafe : isSafeId s = true) : v.name? = some s := by
  rw [name?, truth_of_safe h hsafe, if_pos rfl, h]

theorem truth_of_name? {v : Value} {s : String} (h : v.name? = some s) : v.truth = true := by
  by_contra htruth
  rw [name?, if_neg htruth] at h
  exact absurd h (by simp only [reduceCtorEq, not_false_eq_true])

theorem asText?_of_name? {v : Value} {s : String} (h : v.name? = some s) :
    v.asText? = some s := by
  rwa [name?, if_pos (truth_of_name? h)] at h

end Value

/-- The ids of the nodes are texts, quoted or source, that are safe, and no two are equal. -/
structure Keyed (ns : List Node) : Prop where
  named : ∀ n ∈ ns, ∃ s, n.id.asText? = some s ∧ isSafeId s = true
  distinct : (ns.map (·.id.asText?)).Nodup

/-- The names by which the nodes go. -/
theorem Keyed.names {ns : List Node} (h : Keyed ns) : ∃ names : List String,
    ns.map (·.id.asText?) = names.map some ∧ names.Nodup ∧ ∀ s ∈ names, isSafeId s = true := by
  have hnames : ns.map (·.id.asText?) = (ns.map (·.id.plain)).map some := by
    rw [List.map_map]
    refine List.map_congr_left fun n hn => ?_
    rcases h.named n hn with ⟨s, hs, -⟩
    rw [Function.comp, hs, Value.plain_of_asText? hs]
  have hdistinct := h.distinct
  rw [hnames] at hdistinct
  refine ⟨_, hnames, hdistinct.of_map some, List.forall_mem_map.mpr fun n hn => ?_⟩
  rcases h.named n hn with ⟨s, hs, hsafe⟩
  rwa [Value.plain_of_asText? hs]

namespace Forest

/-- All ids are safe and no two are equal. -/
def WellNamed (nodes : Forest) : Prop :=
  ∃ names : List String, (walk nodes).map (·.id) = names.map Value.text ∧ names.Nodup ∧
    ∀ s ∈ names, isSafeId s = true

theorem WellNamed.keyed {nodes : Forest} (h : WellNamed nodes) : Keyed (walk nodes) := by
  rcases h with ⟨names, hids, hnodup, hsafe⟩
  have htexts : (walk nodes).map (·.id.asText?) = names.map some := by
    have hmap := congrArg (List.map Value.asText?) hids
    rw [List.map_map, List.map_map] at hmap
    exact hmap
  refine ⟨fun n hn => ?_, ?_⟩
  · have hmem : n.id ∈ names.map Value.text := by
      rw [← hids]
      exact List.mem_map_of_mem (f := fun n : Node => n.id) hn
    rcases List.mem_map.mp hmem with ⟨s, hs, heq⟩
    exact ⟨s, by rw [← heq, Value.asText?], hsafe s hs⟩
  · rw [htexts]
    exact hnodup.map fun _ _ heq => Option.some.inj heq

end Forest

/-- Ids that are safe, differ and are plain texts name a forest well. -/
theorem Keyed.wellNamed {nodes : Forest} (h : Keyed (Forest.walk nodes))
    (htexts : ∀ n ∈ Forest.walk nodes, ∃ s, n.id = .text s) : Forest.WellNamed nodes := by
  rcases h.names with ⟨names, hids, hnodup, hsafe⟩
  refine ⟨names, ?_, hnodup, hsafe⟩
  -- Of a plain text, the text that it has the characters of is the value itself.
  have hvalues : (Forest.walk nodes).map (·.id)
      = ((Forest.walk nodes).map (·.id.asText?)).map fun s => .text (s.getD "") := by
    rw [List.map_map]
    refine List.map_congr_left fun n hn => ?_
    rcases htexts n hn with ⟨s, hs⟩
    rw [Function.comp, hs, Value.asText?, Option.getD_some]
  rw [hvalues, hids, List.map_map]
  rfl

namespace Forest

/-- How the first pass settles the id of a node. -/
def settleChoice (s : List String × List Notice) (n : Node) :
    (List String × List Notice) × Value :=
  if !n.id.truth then ((s.1, s.2), n.id)
  else
    let unique := uniqueId n.id.safeId s.1
    if n.id.same (.text unique) then ((s.1 ++ [unique], s.2), n.id)
    else ((s.1 ++ [unique], s.2 ++ [renamed n.id unique]), .text unique)

theorem settleIds_eq (nodes : Forest) : settleIds nodes = relabel settleChoice ([], []) nodes :=
  rfl

/-- How the second pass names a node. -/
def nameChoice (s : Naming) (n : Node) : Naming × Value :=
  if n.id.truth || s.fault.isSome then (s, n.id)
  else
    match n.type.asText? with
    | none => ({ s with fault := some .lacking }, n.id)
    | some type =>
      let counter := firstFree (typeName type) s.taken s.taken.length (s.counter + 1)
      let id := typeName type counter
      ({ s with counter := counter, taken := s.taken ++ [id] }, .text id)

theorem nameNodes_eq (taken : List String) (nodes : Forest) :
    nameNodes taken nodes = relabel nameChoice { counter := 0, taken := taken } nodes :=
  rfl

/-- Settling leaves an id that counts as empty, and makes any other a text that is safe and
    not taken. A text that is such already stays. -/
theorem settleChoice_cases (s : List String × List Notice) (n : Node) :
    (n.id.truth = false ∧ settleChoice s n = (s, n.id)) ∨
    ∃ (new : String) (said : List Notice) (v : Value),
      settleChoice s n = ((s.1 ++ [new], said), v) ∧ (v = n.id ∨ v = .text new) ∧
      v.asText? = some new ∧ new ∉ s.1 ∧ isSafeId new = true := by
  by_cases htruth : n.id.truth = true
  · right
    refine ⟨uniqueId n.id.safeId s.1, ?_⟩
    have hfree := uniqueId_not_mem n.id.safeId s.1
    have hsafe := isSafeId_uniqueId s.1 (isSafeId_safeId n.id.plain)
    unfold settleChoice
    simp only [htruth, Bool.not_true, Bool.false_eq_true, if_false]
    by_cases hsame : n.id.same (.text (uniqueId n.id.safeId s.1)) = true
    · rw [if_pos hsame]
      exact ⟨_, _, rfl, .inl rfl, Value.asText?_of_same hsame rfl, hfree, hsafe⟩
    · rw [if_neg hsame]
      exact ⟨_, _, rfl, .inr rfl, rfl, hfree, hsafe⟩
  · rw [Bool.not_eq_true] at htruth
    refine .inl ⟨htruth, ?_⟩
    rw [settleChoice, htruth]
    rfl

/-- Naming leaves an id that does not count as empty, and makes any other a text that is safe
    and not taken, unless it stops. -/
theorem nameChoice_cases (s : Naming) (n : Node) :
    (n.id.truth = true ∧ nameChoice s n = (s, n.id)) ∨
    ((nameChoice s n).1.fault.isSome = true ∧ (nameChoice s n).2 = n.id) ∨
    ∃ (new : String) (counter : Nat),
      nameChoice s n = ({ s with counter := counter, taken := s.taken ++ [new] }, .text new) ∧
      n.id.truth = false ∧ new ∉ s.taken ∧ isSafeId new = true := by
  by_cases htruth : n.id.truth = true
  · refine .inl ⟨htruth, ?_⟩
    rw [nameChoice, htruth, Bool.true_or, if_pos rfl]
  · rw [Bool.not_eq_true] at htruth
    right
    by_cases hfault : s.fault.isSome = true
    · left
      rw [nameChoice, hfault, Bool.or_true, if_pos rfl]
      exact ⟨hfault, rfl⟩
    · rw [Bool.not_eq_true] at hfault
      unfold nameChoice
      simp only [htruth, hfault, Bool.or_self, Bool.false_eq_true, if_false]
      cases htype : n.type.asText? with
      | none => exact .inl ⟨Option.isSome_some, rfl⟩
      | some type =>
          exact .inr ⟨_, _, rfl, trivial, firstFree_not_mem (typeName type)
            (fun _ _ heq => typeName_injective type heq) s.taken (s.counter + 1),
            isSafeId_safeId _⟩

/-- The first pass leaves safe and distinct names beside ids that count as empty, and the
    names are what it has taken. -/
theorem choices_settleChoice (ns : List Node) (taken : List String) (notices : List Notice) :
    ∃ (out : List Value) (said : List Notice),
      choices settleChoice (taken, notices) ns
        = ((taken ++ out.filterMap Value.name?, said), out) ∧
      (out.filterMap Value.name?).Nodup ∧
      ∀ v ∈ out, v.truth = true → ∃ t, v.asText? = some t ∧ isSafeId t = true ∧ t ∉ taken := by
  induction ns generalizing taken notices with
  | nil => exact ⟨[], notices, by rw [choices, List.filterMap_nil, List.append_nil],
      List.nodup_nil, fun v hv => absurd hv List.not_mem_nil⟩
  | cons n ns ih =>
      rcases settleChoice_cases (taken, notices) n with
        ⟨hempty, hchoice⟩ | ⟨new, now, v, hchoice, -, htext, hnew, hsafe⟩
      · rcases ih taken notices with ⟨out, said, hout, hnodup, hfree⟩
        refine ⟨n.id :: out, said, ?_, ?_, ?_⟩
        · rw [choices, hchoice, hout, List.filterMap_cons, Value.name?_of_empty hempty]
        · rwa [List.filterMap_cons, Value.name?_of_empty hempty]
        · intro w hw htruth
          rcases List.mem_cons.mp hw with rfl | hw
          · exact absurd (hempty.symm.trans htruth) (by decide)
          · exact hfree w hw htruth
      · rcases ih (taken ++ [new]) now with ⟨out, said, hout, hnodup, hfree⟩
        have hname := Value.name?_of_safe htext hsafe
        refine ⟨v :: out, said, ?_, ?_, ?_⟩
        · rw [choices, hchoice, hout, List.filterMap_cons, hname, List.append_assoc,
            List.singleton_append]
        · -- Names that are given later are not among those taken before, as the new one is.
          rw [List.filterMap_cons, hname, List.nodup_cons]
          refine ⟨fun hmem => ?_, hnodup⟩
          rcases List.mem_filterMap.mp hmem with ⟨w, hw, hwname⟩
          rcases hfree w hw (Value.truth_of_name? hwname) with ⟨t, ht, -, hfresh⟩
          rw [Value.asText?_of_name? hwname, Option.some.injEq] at ht
          rw [← ht] at hfresh
          exact hfresh (List.mem_append_right _ List.mem_cons_self)
        · intro w hw htruth
          rcases List.mem_cons.mp hw with rfl | hw
          · exact ⟨new, htext, hsafe, hnew⟩
          · rcases hfree w hw htruth with ⟨t, ht, htsafe, hfresh⟩
            exact ⟨t, ht, htsafe, fun hmem => hfresh (List.mem_append_left _ hmem)⟩

/-- Naming that has stopped does not go on. -/
theorem fault_choices_nameChoice (ns : List Node) (s : Naming) (h : s.fault.isSome = true) :
    (choices nameChoice s ns).1.fault.isSome = true := by
  induction ns generalizing s with
  | nil => exact h
  | cons n ns ih =>
      refine ih (nameChoice s n).1 ?_
      rcases nameChoice_cases s n with ⟨-, hchoice⟩ | ⟨hfault, -⟩ | ⟨new, counter, hchoice, -⟩
      · rwa [hchoice]
      · exact hfault
      · rwa [hchoice]

/-- A text in front of others that are no such text. -/
theorem nodup_cons_text {v : Value} {vs : List Value} {t : String} (hv : v.asText? = some t)
    (hother : ∀ w ∈ vs, w.asText? ≠ some t) (hdistinct : (vs.map Value.asText?).Nodup) :
    ((v :: vs).map Value.asText?).Nodup := by
  rw [List.map_cons, List.nodup_cons]
  refine ⟨fun hmem => ?_, hdistinct⟩
  rcases List.mem_map.mp hmem with ⟨w, hw, heq⟩
  exact hother w hw (heq.trans hv)

/-- The names of nodes are taken if their ids are. -/
theorem mem_taken_of_name {ns : List Node} {taken : List String}
    (hids : ∀ n ∈ ns, n.id.truth = true →
      ∃ t, n.id.asText? = some t ∧ isSafeId t = true ∧ t ∈ taken)
    {t : String} (ht : t ∈ (ns.map (·.id)).filterMap Value.name?) : t ∈ taken := by
  rcases List.mem_filterMap.mp ht with ⟨v, hv, hname⟩
  rcases List.mem_map.mp hv with ⟨m, hm, rfl⟩
  rcases hids m hm (Value.truth_of_name? hname) with ⟨u, hu, -, htaken⟩
  rw [Value.asText?_of_name? hname, Option.some.injEq] at hu
  rwa [hu]

/-- The second pass names the nodes without an id, with names that no node has. -/
theorem choices_nameChoice (ns : List Node) (s : Naming)
    (hids : ∀ n ∈ ns, n.id.truth = true →
      ∃ t, n.id.asText? = some t ∧ isSafeId t = true ∧ t ∈ s.taken)
    (hnodup : ((ns.map (·.id)).filterMap Value.name?).Nodup)
    (hend : (choices nameChoice s ns).1.fault = none) :
    (∀ v ∈ (choices nameChoice s ns).2, ∃ t, v.asText? = some t ∧ isSafeId t = true ∧
      (t ∉ s.taken ∨ t ∈ (ns.map (·.id)).filterMap Value.name?)) ∧
    ((choices nameChoice s ns).2.map Value.asText?).Nodup := by
  -- The induction is along the walk: the ids that the first pass left for the nodes still to
  -- come are taken, so a new name is none of them, and a later new name is not this one.
  induction ns generalizing s with
  | nil => exact ⟨fun v hv => absurd hv List.not_mem_nil, List.nodup_nil⟩
  | cons n ns ih =>
      have hothers := fun m hm => hids m (List.mem_cons_of_mem n hm)
      rw [choices] at hend
      rcases nameChoice_cases s n with
        ⟨htruth, hchoice⟩ | ⟨hfault, -⟩ | ⟨new, counter, hchoice, hempty, hnew, hsafe⟩
      · -- The node keeps its id, which no other of the settled ones equals.
        rcases hids n List.mem_cons_self htruth with ⟨t, ht, htsafe, htaken⟩
        have hname := Value.name?_of_safe ht htsafe
        rw [List.map_cons, List.filterMap_cons, hname, List.nodup_cons] at hnodup
        rw [hchoice] at hend
        rcases ih s hothers hnodup.2 hend with ⟨hall, hdistinct⟩
        rw [choices, hchoice, List.map_cons, List.filterMap_cons, hname]
        refine ⟨List.forall_mem_cons.mpr ⟨⟨t, ht, htsafe, .inr List.mem_cons_self⟩, fun v hv => ?_⟩,
          nodup_cons_text ht (fun v hv heq => ?_) hdistinct⟩
        · rcases hall v hv with ⟨u, hu, husafe, hfrom⟩
          exact ⟨u, hu, husafe, hfrom.imp id (List.mem_cons_of_mem t)⟩
        · rcases hall v hv with ⟨u, hu, -, hfrom⟩
          rw [heq, Option.some.injEq] at hu
          rw [← hu] at hfrom
          exact hfrom.elim (fun hfree => hfree htaken) hnodup.1
      · -- It would have stopped for good.
        have hstopped := fault_choices_nameChoice ns _ hfault
        rw [hend] at hstopped
        exact absurd hstopped Bool.false_ne_true
      · -- The node had no id. Its new name is taken from then on, so that no later node gets
        -- it, and no later node has it already.
        rw [List.map_cons, List.filterMap_cons, Value.name?_of_empty hempty] at hnodup ⊢
        rw [hchoice] at hend
        have htaken : ∀ m ∈ ns, m.id.truth = true →
            ∃ t, m.id.asText? = some t ∧ isSafeId t = true ∧ t ∈ s.taken ++ [new] := by
          intro m hm htruth
          rcases hothers m hm htruth with ⟨t, ht, htsafe, htaken⟩
          exact ⟨t, ht, htsafe, List.mem_append_left _ htaken⟩
        rcases ih { s with counter := counter, taken := s.taken ++ [new] } htaken hnodup hend with
          ⟨hall, hdistinct⟩
        rw [choices, hchoice]
        refine ⟨List.forall_mem_cons.mpr ⟨⟨new, rfl, hsafe, .inl hnew⟩, fun v hv => ?_⟩,
          nodup_cons_text rfl (fun v hv heq => ?_) hdistinct⟩
        · rcases hall v hv with ⟨u, hu, husafe, hfrom⟩
          exact ⟨u, hu, husafe,
            hfrom.imp (fun hfree hmem => hfree (List.mem_append_left _ hmem)) id⟩
        · rcases hall v hv with ⟨u, hu, -, hfrom⟩
          rw [heq, Option.some.injEq] at hu
          rw [← hu] at hfrom
          exact hfrom.elim (fun hfree => hfree (List.mem_append_right _ List.mem_cons_self))
            fun hin => hnew (mem_taken_of_name hothers hin)

/-- Naming does not stop at nodes whose types are texts. -/
theorem choices_nameChoice_fault (ns : List Node)
    (htypes : ∀ n ∈ ns, ∃ t, n.type.asText? = some t) (s : Naming) (hfault : s.fault = none) :
    (choices nameChoice s ns).1.fault = none := by
  induction ns generalizing s with
  | nil => exact hfault
  | cons n ns ih =>
      refine ih (fun m hm => htypes m (List.mem_cons_of_mem n hm)) (nameChoice s n).1 ?_
      rcases htypes n List.mem_cons_self with ⟨t, ht⟩
      rw [nameChoice, ht]
      split
      · exact hfault
      · exact hfault

theorem mem_types_of_shells {as bs : List Node} (h : as.map Node.shell = bs.map Node.shell)
    (hbs : ∀ n ∈ bs, ∃ t, n.type.asText? = some t) : ∀ n ∈ as, ∃ t, n.type.asText? = some t := by
  intro n hn
  have hmem : n.shell ∈ bs.map Node.shell := by
    rw [← h]
    exact List.mem_map_of_mem hn
  rcases List.mem_map.mp hmem with ⟨m, hm, heq⟩
  rcases hbs m hm with ⟨t, ht⟩
  refine ⟨t, ?_⟩
  rw [← ht]
  exact (congrArg (fun s => Value.asText? s.1) heq).symm

/-- Giving out ids fails for no forest whose types are texts. -/
theorem assignIds_fault {nodes : Forest}
    (htypes : ∀ n ∈ walk nodes, ∃ t, n.type.asText? = some t) :
    (assignIds nodes).fault = none := by
  have hfault : (assignIds nodes).fault
      = (nameNodes (settleIds nodes).1.1 (settleIds nodes).2).1.fault := rfl
  rw [hfault, nameNodes_eq, (relabel_ids nameChoice _ (settleIds nodes).2).1]
  exact choices_nameChoice_fault _
    (mem_types_of_shells (relabel_shells settleChoice ([], []) nodes) htypes) _ rfl

/-- After ids were given out to a forest, all of them are safe and no two are equal, whatever
    they were before. -/
theorem assignIds_keyed {nodes : Forest} (hend : (assignIds nodes).fault = none) :
    Keyed (walk (assignIds nodes).nodes) := by
  rcases choices_settleChoice (walk nodes) [] [] with ⟨out, said, hout, hnodup, hfree⟩
  have hsettled := relabel_ids settleChoice ([], []) nodes
  rw [hout, ← settleIds_eq, List.nil_append] at hsettled
  rcases hsettled with ⟨htaken, hids⟩
  simp only at htaken hids
  have hnamed := relabel_ids nameChoice { counter := 0, taken := (settleIds nodes).1.1 }
    (settleIds nodes).2
  rw [← nameNodes_eq] at hnamed
  -- What the first pass has taken are the names that it leaves, so the second one sees them all.
  rcases choices_nameChoice (walk (settleIds nodes).2)
      { counter := 0, taken := (settleIds nodes).1.1 } (fun n hn htruth => by
        have hmem : n.id ∈ out := by
          rw [← hids]
          exact List.mem_map_of_mem (f := fun n : Node => n.id) hn
        rcases hfree n.id hmem htruth with ⟨t, ht, hsafe, -⟩
        rw [htaken]
        exact ⟨t, ht, hsafe, List.mem_filterMap.mpr ⟨n.id, hmem, Value.name?_of_safe ht hsafe⟩⟩)
      (by rw [hids]; exact hnodup) (by rw [← hnamed.1]; exact hend) with ⟨hall, hdistinct⟩
  rw [← hnamed.2] at hall hdistinct
  refine ⟨fun m hm => ?_, ?_⟩
  · rcases hall m.id (List.mem_map_of_mem (f := fun n : Node => n.id) hm) with ⟨t, ht, hsafe, -⟩
    exact ⟨t, ht, hsafe⟩
  · rw [List.map_map] at hdistinct
    exact hdistinct

/-- Ids that are plain texts remain such, since each is kept or replaced by one. -/
theorem assignIds_texts {nodes : Forest} (hids : ∀ n ∈ walk nodes, ∃ s, n.id = .text s) :
    ∀ n ∈ walk (assignIds nodes).nodes, ∃ s, n.id = .text s := by
  have hsettle : ∀ (s : List String × List Notice) (n : Node), (∃ t, n.id = .text t) →
      ∃ t, (settleChoice s n).2 = .text t := by
    intro s n hn
    rcases settleChoice_cases s n with ⟨-, hchoice⟩ | ⟨new, said, v, hchoice, hv, -⟩
    · rwa [hchoice]
    · rw [hchoice]
      rcases hv with rfl | rfl
      · exact hn
      · exact ⟨new, rfl⟩
  have hname : ∀ (s : Naming) (n : Node), (∃ t, n.id = .text t) →
      ∃ t, (nameChoice s n).2 = .text t := by
    intro s n hn
    rcases nameChoice_cases s n with ⟨-, hchoice⟩ | ⟨-, hid⟩ | ⟨new, counter, hchoice, -⟩
    · rwa [hchoice]
    · rwa [hid]
    · exact ⟨new, by rw [hchoice]⟩
  exact relabel_forall (fun v => ∃ t, v = .text t) hname _
    (relabel_forall (fun v => ∃ t, v = .text t) hsettle ([], []) hids)

/-- After ids were given out a forest is well named. -/
theorem assignIds_wellNamed {nodes : Forest} (hids : ∀ n ∈ walk nodes, ∃ s, n.id = .text s)
    (htypes : ∀ n ∈ walk nodes, ∃ t, n.type = .text t) :
    (assignIds nodes).fault = none ∧ WellNamed (assignIds nodes).nodes := by
  have hfault := assignIds_fault fun n hn => by
    rcases htypes n hn with ⟨t, ht⟩
    exact ⟨t, by rw [ht, Value.asText?]⟩
  exact ⟨hfault, (assignIds_keyed hfault).wellNamed (assignIds_texts hids)⟩

theorem choices_settleChoice_self (ns : List Node) (names taken : List String)
    (notices : List Notice) (hids : ns.map (·.id.asText?) = names.map some)
    (hnodup : (taken ++ names).Nodup) (hsafe : ∀ s ∈ names, isSafeId s = true) :
    choices settleChoice (taken, notices) ns = ((taken ++ names, notices), ns.map (·.id)) := by
  induction ns generalizing names taken with
  | nil =>
      cases names with
      | nil => rw [choices, List.append_nil, List.map_nil]
      | cons s names => exact absurd hids (by simp only [List.map_cons, List.map_nil, reduceCtorEq,
          not_false_eq_true])
  | cons n ns ih =>
      cases names with
      | nil => exact absurd hids (by simp only [List.map_cons, List.map_nil, reduceCtorEq,
          not_false_eq_true])
      | cons s names =>
          rw [List.map_cons, List.map_cons, List.cons.injEq] at hids
          have hs := hsafe s List.mem_cons_self
          -- No earlier node has the id, so it is kept.
          have hfree : s ∉ taken := by
            intro hmem
            exact (List.nodup_append.mp hnodup).2.2 s hmem s List.mem_cons_self rfl
          have htruth := Value.truth_of_safe hids.1 hs
          have hplain : Value.safeId n.id = s := by
            rw [Value.safeId, Value.plain_of_asText? hids.1, safeId_of_isSafeId hs]
          have hchoice : settleChoice (taken, notices) n = ((taken ++ [s], notices), n.id) := by
            unfold settleChoice
            simp only [htruth, hplain, uniqueId_self hfree, Value.same_of_asText? hids.1,
              Bool.not_true, Bool.false_eq_true, if_false, if_true]
          rw [choices, hchoice, ih names (taken ++ [s]) hids.2
            (by rwa [List.append_assoc, List.singleton_append])
            (fun t ht => hsafe t (List.mem_cons_of_mem s ht)), List.append_assoc,
            List.singleton_append, List.map_cons]

theorem choices_nameChoice_self (ns : List Node) (s : Naming)
    (hids : ∀ n ∈ ns, n.id.truth = true) : choices nameChoice s ns = (s, ns.map (·.id)) := by
  induction ns with
  | nil => rfl
  | cons n ns ih =>
      rw [choices, nameChoice, hids n List.mem_cons_self, Bool.true_or, if_pos rfl]
      simp only [ih fun m hm => hids m (List.mem_cons_of_mem n hm), List.map_cons]

/-- A forest whose ids are safe and differ stays as it is. -/
theorem assignIds_self {nodes : Forest} (h : Keyed (walk nodes)) :
    assignIds nodes = ⟨nodes, [], none⟩ := by
  rcases h.names with ⟨names, hids, hnodup, hsafe⟩
  have hchoices := choices_settleChoice_self (walk nodes) names [] [] hids hnodup hsafe
  have hsettled : settleIds nodes = ((names, []), nodes) := by
    refine Prod.ext ?_ ?_
    · rw [settleIds_eq, (relabel_ids settleChoice ([], []) nodes).1, hchoices, List.nil_append]
    · rw [settleIds_eq, relabel_self settleChoice ([], []) nodes (by rw [hchoices])]
  -- No id is empty, so the second pass has nothing to name.
  have htruth : ∀ n ∈ walk nodes, n.id.truth = true := by
    intro n hn
    rcases h.named n hn with ⟨s, hs, hsafe⟩
    exact Value.truth_of_safe hs hsafe
  have hnamed : nameNodes names nodes = ({ counter := 0, taken := names }, nodes) := by
    have hkeep := choices_nameChoice_self (walk nodes) { counter := 0, taken := names } htruth
    refine Prod.ext ?_ ?_
    · rw [nameNodes_eq, (relabel_ids nameChoice _ nodes).1, hkeep]
    · rw [nameNodes_eq, relabel_self nameChoice _ nodes (by rw [hkeep])]
  rw [assignIds, hsettled]
  simp only [hnamed]

end Forest

end WidgetSync
