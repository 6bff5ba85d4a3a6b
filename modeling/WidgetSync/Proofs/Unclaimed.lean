import Mathlib.Data.List.Induction
import WidgetSync.Proofs.Ids

/-!
# Ids That Nobody Else Claims

Which nodes keep their ids when ids are given out.

A node that has an id claims it, made safe. The claims are met one after the other, so all
that becomes of a claim depends on the claims before it. The first to claim an id gets it. Who
claims it again is displaced to a numbered name, the first that is not taken so far. Whether a
later node claims that name is not asked: a node may lose an id that nobody else claims, because
a node before it was displaced to just that id. `numberedId_lost` is a forest in which that
happens. There is no other way to lose it. What comes later does not matter, nor do the nodes
without an id, which get theirs after all claims have been met.

## Main definitions

* `Forest.claims`: The ids that nodes claim.
* `Forest.granted`: The ids that some claims are granted.
* `Forest.Displaced`: One of some claims is displaced to an id.

## Theorems

* `uniqueId_numbered`: What a claim is displaced to.
* `Forest.mem_granted_iff`: When an id is taken that was not claimed.
* `Forest.choices_taken`: What is taken after the first pass.
* `Forest.choices_settled`, `Forest.choices_named`: What the two passes do to one node.
* `Forest.assignIds_kept_iff`: When a node keeps a safe id.
* `Forest.unclaimed_kept_iff`: When a node keeps an id that nobody else claims.
-/

namespace WidgetSync

/-- An id that is taken gives way to its first numbered name that is not taken. -/
theorem uniqueId_numbered {c : String} {taken : List String} (h : c ∈ taken) :
    ∃ k, 2 ≤ k ∧ uniqueId c taken = s!"{c}_{k}" ∧
      ∀ j, 2 ≤ j → j < k → s!"{c}_{j}" ∈ taken := by
  have hpassed : ∀ {m last : Nat}, Search (fun n => s!"{c}_{n}") taken m last →
      m ≤ last ∧ ∀ j, m ≤ j → j < last → s!"{c}_{j}" ∈ taken := by
    intro m last hsearch
    induction hsearch with
    | stop hfree => exact ⟨Nat.le_refl _, fun j hlow hhigh => absurd hlow (by omega)⟩
    | @pass m last htaken _ ih =>
        refine ⟨by omega, fun j hlow hhigh => ?_⟩
        rcases Nat.eq_or_lt_of_le hlow with rfl | hlow
        · exact htaken
        · exact ih.2 j hlow hhigh
  rcases hpassed (search_firstFree (fun n => s!"{c}_{n}") (fun _ _ h => numbered_injective c h)
    taken 2) with ⟨hle, hall⟩
  refine ⟨_, hle, ?_, hall⟩
  rw [uniqueId, if_pos (List.contains_iff_mem.mpr h)]

namespace Forest

/-- The ids that nodes claim: those that are there, made safe. -/
def claims (ns : List Node) : List String :=
  (ns.filter (·.id.truth)).map (·.id.safeId)

/-- The ids that claims are granted, one after the other. -/
def granted (taken : List String) : List String → List String
  | [] => []
  | c :: cs => uniqueId c taken :: granted (taken ++ [uniqueId c taken]) cs

/-- One of the claims is displaced to an id: the id is a numbered name of the claim, and the
    claims before it have taken the claim itself and all its names with smaller numbers. -/
inductive Displaced (s : String) (claims : List String) : Prop where
  | intro (earlier : List String) (c : String) (later : List String) (k : Nat)
      (hsplit : claims = earlier ++ c :: later) (hclaim : c ∈ granted [] earlier) (hk : 2 ≤ k)
      (hnumbers : ∀ j, 2 ≤ j → j < k → s!"{c}_{j}" ∈ granted [] earlier)
      (hname : s = s!"{c}_{k}")

theorem granted_append (taken as bs : List String) :
    granted taken (as ++ bs)
      = granted taken as ++ granted (taken ++ granted taken as) bs := by
  induction as generalizing taken with
  | nil => rw [granted, List.nil_append, List.nil_append, List.append_nil]
  | cons a as ih =>
      rw [List.cons_append, granted, granted, ih, List.cons_append, List.append_assoc,
        List.singleton_append]

/-- Whatever was taken was granted to some claim. -/
theorem mem_granted {s : String} {claims : List String} (h : s ∈ granted [] claims) :
    ∃ earlier c later, claims = earlier ++ c :: later ∧ uniqueId c (granted [] earlier) = s := by
  induction claims using List.reverseRecOn with
  | nil => exact nomatch h
  | append_singleton claims c ih =>
      rw [granted_append, List.nil_append, List.mem_append, granted, granted,
        List.mem_singleton] at h
      rcases h with h | rfl
      · rcases ih h with ⟨earlier, c', later, rfl, hs⟩
        exact ⟨earlier, c', later ++ [c], by rw [List.append_assoc, List.cons_append], hs⟩
      · exact ⟨claims, c, [], rfl, rfl⟩

/-- An id that nobody has claimed is taken just if a claim was displaced to it. -/
theorem mem_granted_iff {s : String} {claims : List String} (hs : s ∉ claims) :
    s ∈ granted [] claims ↔ Displaced s claims := by
  constructor
  · intro h
    rcases mem_granted h with ⟨earlier, c, later, rfl, rfl⟩
    by_cases htaken : c ∈ granted [] earlier
    · rcases uniqueId_numbered htaken with ⟨k, hk, hname, hnumbers⟩
      exact ⟨earlier, c, later, k, rfl, htaken, hk, hnumbers, hname⟩
    · -- Else the claim was its own, but nobody claims it.
      rw [uniqueId_self htaken] at hs
      exact absurd (List.mem_append_right _ List.mem_cons_self) hs
  · rintro ⟨earlier, c, later, k, rfl, htaken, hk, hnumbers, rfl⟩
    rw [granted_append, List.nil_append, granted, List.mem_append]
    rcases uniqueId_numbered htaken with ⟨k', hk', hname, hnumbers'⟩
    rcases Nat.lt_trichotomy k k' with hlt | rfl | hgt
    · exact .inl (hnumbers' k hk hlt)
    · exact .inr (hname ▸ List.mem_cons_self)
    · -- It stopped earlier, at a name that is taken.
      exact absurd (hname ▸ hnumbers k' hk' hgt) (uniqueId_not_mem c _)

/-- What is taken with a claim is what it is granted. -/
theorem settleChoice_taken (s : List String × List Notice) {n : Node}
    (htruth : n.id.truth = true) :
    ∃ said, (settleChoice s n).1 = (s.1 ++ [uniqueId n.id.safeId s.1], said) := by
  rw [settleChoice, htruth]
  simp only [Bool.not_true, Bool.false_eq_true, if_false]
  split
  · exact ⟨_, rfl⟩
  · exact ⟨_, rfl⟩

/-- The names that the first pass has taken are what became of the claims. -/
theorem choices_taken (ns : List Node) (taken : List String) (notices : List Notice) :
    (choices settleChoice (taken, notices) ns).1.1 = taken ++ granted taken (claims ns) := by
  induction ns generalizing taken notices with
  | nil => rw [choices, claims, List.filter_nil, List.map_nil, granted, List.append_nil]
  | cons n ns ih =>
      cases htruth : n.id.truth with
      | true =>
          have hclaims : claims (n :: ns) = n.id.safeId :: claims ns := by
            simp only [claims, List.filter_cons, htruth, if_true, List.map_cons]
          rcases settleChoice_taken (taken, notices) htruth with ⟨said, hstep⟩
          rw [choices, hstep, hclaims, granted]
          exact (ih _ said).trans (by rw [List.append_assoc, List.singleton_append])
      | false =>
          have hclaims : claims (n :: ns) = claims ns := by
            simp only [claims, List.filter_cons, htruth, Bool.false_eq_true, if_false]
          rw [choices, settleChoice, htruth, hclaims]
          exact ih taken notices

theorem mem_claims {ns : List Node} {s : String} :
    s ∈ claims ns ↔ ∃ n ∈ ns, n.id.truth = true ∧ n.id.safeId = s := by
  simp only [claims, List.mem_map, List.mem_filter, and_assoc]

/-- The first pass leaves a safe id as it is, unless a claim before it has taken it. -/
theorem choices_settled (before after : List Node) {n : Node} {s : String}
    (hid : n.id.asText? = some s) (hsafe : isSafeId s = true) :
    (choices settleChoice ([], []) (before ++ n :: after)).2[before.length]? =
      some (if s ∈ granted [] (claims before) then
        .text (uniqueId s (granted [] (claims before))) else n.id) := by
  have hlength : (choices settleChoice ([], []) before).2.length = before.length :=
    choices_length settleChoice _ before
  have htaken := choices_taken before [] []
  rw [List.nil_append] at htaken
  rw [choices_append, List.getElem?_append_right (Nat.le_of_eq hlength), hlength, Nat.sub_self,
    choices, List.getElem?_cons_zero, settleChoice, Value.truth_of_safe hid hsafe, htaken,
    Value.safeId, Value.plain_of_asText? hid, safeId_of_isSafeId hsafe]
  simp only [Bool.not_true, Bool.false_eq_true, if_false]
  by_cases hmem : s ∈ granted [] (claims before)
  · have hother : n.id.same (.text (uniqueId s (granted [] (claims before)))) = false := by
      refine Bool.eq_false_iff.mpr fun hsame => ?_
      have htext := Value.asText?_of_same hsame rfl
      rw [hid, Option.some.injEq] at htext
      exact uniqueId_not_mem s (granted [] (claims before)) (htext ▸ hmem)
    rw [hother, if_neg Bool.false_ne_true, if_pos hmem]
  · rw [uniqueId_self hmem, Value.same_of_asText? hid, if_pos rfl, if_neg hmem]

/-- The second pass leaves an id that is there as it is. -/
theorem choices_named {ns : List Node} {s : Naming} {i : Nat} {v : Value}
    (hv : (ns.map (·.id))[i]? = some v) (htruth : v.truth = true) :
    (choices nameChoice s ns).2[i]? = some v := by
  induction ns generalizing s i with
  | nil => exact hv
  | cons n ns ih =>
      rw [choices]
      cases i with
      | zero =>
          rw [List.map_cons, List.getElem?_cons_zero, Option.some.injEq] at hv
          subst hv
          rw [List.getElem?_cons_zero, nameChoice, htruth, Bool.true_or, if_pos rfl]
      | succ i => exact ih hv

/-- A node whose id is safe keeps it, when ids are given out, just if no claim before it has
    taken it. -/
theorem assignIds_kept_iff {nodes : Forest} {before after : List Node} {n : Node} {s : String}
    (hwalk : walk nodes = before ++ n :: after) (hid : n.id.asText? = some s)
    (hsafe : isSafeId s = true) :
    ((walk (assignIds nodes).nodes).map (·.id))[before.length]? = some n.id ↔
      s ∉ granted [] (claims before) := by
  have hsettled := choices_settled before after hid hsafe
  rw [← hwalk, ← (relabel_ids settleChoice ([], []) nodes).2, ← settleIds_eq] at hsettled
  have hnamed : (walk (assignIds nodes).nodes).map (·.id)
      = (choices nameChoice { counter := 0, taken := (settleIds nodes).1.1 }
          (walk (settleIds nodes).2)).2 :=
    (relabel_ids nameChoice { counter := 0, taken := (settleIds nodes).1.1 } (settleIds nodes).2).2
  rw [hnamed]
  by_cases hmem : s ∈ granted [] (claims before)
  · rw [if_pos hmem] at hsettled
    refine iff_of_false (fun hkept => ?_) (not_not_intro hmem)
    have hunique := choices_named (s := { counter := 0, taken := (settleIds nodes).1.1 }) hsettled
      (Value.truth_of_safe rfl (isSafeId_uniqueId _ hsafe))
    rw [hkept, Option.some.injEq] at hunique
    rw [hunique, Value.asText?, Option.some.injEq] at hid
    exact uniqueId_not_mem s _ (by rwa [hid])
  · rw [if_neg hmem] at hsettled
    exact iff_of_true (choices_named hsettled (Value.truth_of_safe hid hsafe)) hmem

/-- A node keeps a safe id that nobody else claims, when ids are given out, just if no claim
    before it is displaced to that id. -/
theorem unclaimed_kept_iff {nodes : Forest} {before after : List Node} {n : Node} {s : String}
    (htypes : ∀ m ∈ walk nodes, ∃ t, m.type.asText? = some t)
    (hwalk : walk nodes = before ++ n :: after) (hid : n.id.asText? = some s)
    (hsafe : isSafeId s = true)
    (hunclaimed : ∀ m ∈ before ++ after, m.id.truth = true → m.id.safeId ≠ s) :
    (assignIds nodes).fault = none ∧
      (((walk (assignIds nodes).nodes).map (·.id))[before.length]? = some n.id ↔
        ¬ Displaced s (claims before)) := by
  refine ⟨assignIds_fault htypes, ?_⟩
  rw [assignIds_kept_iff hwalk hid hsafe, not_iff_not]
  refine mem_granted_iff fun hclaimed => ?_
  rcases mem_claims.mp hclaimed with ⟨m, hm, htruth, hs⟩
  exact hunclaimed m (List.mem_append_left _ hm) htruth hs

/-- Two items that claim one id, and a third below the second of them. -/
def rivals (id : String) : Forest :=
  [{ type := .text "Item", id := .text "a" },
    { type := .text "Item", id := .text "a",
      children := [{ type := .text "Item", id := .text id }] }]

/-- The third item keeps its id where the second one is displaced to another. -/
theorem thirdId_kept :
    ¬ Displaced "a_3" ["a", "a"] ∧
    (assignIds (rivals "a_3")).fault = none ∧
    (walk (assignIds (rivals "a_3")).nodes).map (·.id.asText?)
      = ["a", "a_2", "a_3"].map some ∧
    ((walk (assignIds (rivals "a_3")).nodes).map (·.id))[2]? = some (.text "a_3") := by
  have hfree : ¬ Displaced "a_3" ["a", "a"] :=
    (mem_granted_iff (by decide)).not.mp (by decide)
  have hkept := @unclaimed_kept_iff (rivals "a_3") ((walk (rivals "a_3")).take 2) []
    { type := .text "Item", id := .text "a_3" } "a_3"
    (by
      intro m hm
      have hall : (walk (rivals "a_3")).all (fun n => n.type.asText?.isSome) = true := by decide
      exact Option.isSome_iff_exists.mp (List.all_eq_true.mp hall m hm))
    rfl rfl (by decide)
    (by
      intro m hm _
      have hall : ∀ m ∈ (walk (rivals "a_3")).take 2 ++ [], m.id.safeId ≠ "a_3" := by decide
      exact hall m hm)
  exact ⟨hfree, hkept.1, by decide, hkept.2.mpr hfree⟩

/-- The third item loses its id, which is safe and which nobody else claims, where the second one
    is displaced to it. -/
theorem numberedId_lost :
    (walk (rivals "a_2")).map (·.id.asText?) = ["a", "a", "a_2"].map some ∧
    isSafeId "a_2" = true ∧ (∀ m ∈ (walk (rivals "a_2")).take 2, m.id.safeId ≠ "a_2") ∧
    (walk (assignIds (rivals "a_2")).nodes).map (·.id.asText?)
      = ["a", "a_2", "a_2_2"].map some := by
  decide

end Forest

end WidgetSync
