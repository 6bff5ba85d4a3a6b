import WidgetSync.Proofs.Numerals

/-!
# JSON Text Read as Written

What the writer makes of plain data is read as the same data.

The parts of a list and of a record stand on lines of their own. A list of texts
that spell the parts, with the separators between them, is read part by part; the
reader stops where the bracket closes. A record has no name twice, so that none of
its members replaces another.

## Main definitions

* `separator`, `joined`: Parts with commas and line ends between them.
* `Datum`: Plain data that can be written.

## Theorems

* `spells_list`, `spells_record`: Lists and records spell their parts.
* `Datum.spelled`: Plain data are written as a text that spells them.
* `read?_write`: Plain data are read as written.
-/

namespace WidgetSync

namespace Table

/-- Entries without repeated names are a table. -/
theorem ofEntries_of_nodup {α : Type} {entries : List (String × α)}
    (h : (names entries).Nodup) : ofEntries entries = entries := by
  -- The entries so far have other names, so each entry goes to the end.
  have hfold : ∀ (t entries : List (String × α)), (names (t ++ entries)).Nodup →
      entries.foldl (fun t e => set t e.1 e.2) t = t ++ entries := by
    intro t entries
    induction entries generalizing t with
    | nil => exact fun _ => (List.append_nil t).symm
    | cons e entries ih =>
        intro hnodup
        have hset : set t e.1 e.2 = t ++ [e] := by
          rw [names, List.map_append, List.map_cons] at hnodup
          refine set_of_get?_eq_none e.2 (get?_eq_none_of_not_mem fun hmem => ?_)
          exact (List.nodup_append.mp hnodup).2.2 _ hmem _ List.mem_cons_self rfl
        rw [List.foldl_cons, hset, ih (t ++ [e]), List.append_assoc, List.singleton_append]
        rwa [List.append_assoc, List.singleton_append]
  exact hfold [] entries h

end Table

namespace Json

-- Lists and records

theorem lineAt_toList (level : Nat) :
    (lineAt level).toList = '\n' :: List.replicate (2 * level) ' ' :=
  String.toList_ofList

theorem skipSpace_lineAt (level : Nat) (cs : List Char) :
    skipSpace ((lineAt level).toList ++ cs) = skipSpace cs := by
  have hspaces : ∀ n, skipSpace (List.replicate n ' ' ++ cs) = skipSpace cs := by
    intro n
    induction n with
    | zero => rfl
    | succ n ih => exact ih
  rw [lineAt_toList]
  exact hspaces (2 * level)

theorem skipSpace_cons {c : Char} (hc : isSpace c = false) (cs : List Char) :
    skipSpace (c :: cs) = c :: cs := by
  rw [skipSpace, List.dropWhile_cons, if_neg (by rw [hc]; decide)]

/-- A value starts neither with a blank nor with a bracket that closes. -/
theorem Spells.starts {cs : List Char} {v : Value} (h : Spells cs v) :
    ∃ c ds, cs = c :: ds ∧ isSpace c = false ∧ c ≠ ']' := by
  have hread := h [] endsValue_nil cs.length (Nat.le_refl _)
  rw [List.append_nil] at hread
  have hnone : ∀ found : Option (Value × List Char), found = none → found ≠ some (v, []) := by
    rintro found rfl
    exact nofun
  cases cs with
  | nil => exact absurd hread (hnone _ rfl)
  | cons c ds =>
      -- Nothing is read from such a character.
      have hplain : c ≠ ' ' ∧ c ≠ '\t' ∧ c ≠ '\n' ∧ c ≠ '\r' ∧ c ≠ ']' := by
        refine ⟨?_, ?_, ?_, ?_, ?_⟩
        all_goals
          rintro rfl
          rw [List.length_cons, readValue?_plain _ _ ⟨by decide, by decide, by decide⟩] at hread
          exact absurd hread (hnone _ rfl)
      refine ⟨c, ds, rfl, ?_, hplain.2.2.2.2⟩
      simp only [isSpace, Bool.or_eq_false_iff, beq_eq_false_iff_ne]
      exact ⟨⟨⟨hplain.1, hplain.2.1⟩, hplain.2.2.1⟩, hplain.2.2.2.1⟩

/-- The characters between two parts. -/
def separator (level : Nat) : List Char :=
  ',' :: (lineAt level).toList

theorem endsValue_separator (level : Nat) (rest : List Char) :
    endsValue (separator level ++ rest) :=
  endsValue_comma _

/-- Parts with the separator between them, and what follows the last. -/
def joined (level : Nat) (parts : List (List Char)) (rest : List Char) : List Char :=
  (separator level).intercalate parts ++ rest

theorem joined_singleton (level : Nat) (p rest : List Char) :
    joined level [p] rest = p ++ rest := by
  rw [joined, List.intercalate_singleton]

theorem joined_cons (level : Nat) (p q : List Char) (qs : List (List Char)) (rest : List Char) :
    joined level (p :: q :: qs) rest = p ++ (separator level ++ joined level (q :: qs) rest) := by
  rw [joined, List.intercalate_cons_cons, List.append_assoc, List.append_assoc, joined]

/-- Parts start like the first of them. -/
theorem joined_starts (level : Nat) {c : Char} {p ds : List Char} (hp : p = c :: ds)
    (ps : List (List Char)) (rest : List Char) :
    ∃ es, joined level (p :: ps) rest = c :: es := by
  cases ps with
  | nil => exact ⟨_, by rw [joined_singleton, hp, List.cons_append]⟩
  | cons q qs => exact ⟨_, by rw [joined_cons, hp, List.cons_append]⟩

/-- Behind a comma the next part is read from its first character on. -/
theorem skipSpace_joined (level : Nat) {p : List Char}
    (hp : ∃ c ds, p = c :: ds ∧ isSpace c = false) (ps : List (List Char)) (rest : List Char) :
    skipSpace ((lineAt level).toList ++ joined level (p :: ps) rest)
      = joined level (p :: ps) rest := by
  rcases hp with ⟨c, ds, hp, hc⟩
  rcases joined_starts level hp ps rest with ⟨es, hes⟩
  rw [skipSpace_lineAt, hes, skipSpace_cons hc]

theorem joined_length (level : Nat) (p q : List Char) (qs : List (List Char)) :
    p.length + (joined level (q :: qs) []).length < (joined level (p :: q :: qs) []).length := by
  rw [joined_cons, List.length_append, List.length_append, separator, List.length_cons]
  omega

/-- The elements of a list are read up to the bracket that closes it. -/
theorem readItems?_joined {parts : List (List Char)} {items : List Value}
    (h : List.Forall₂ Spells parts items) (hne : parts ≠ []) (inner outer : Nat)
    (rest : List Char) (fuel : Nat) (hfuel : (joined inner parts []).length < fuel) :
    readItems? fuel (joined inner parts ((lineAt outer).toList ++ ']' :: rest))
      = some (items, rest) := by
  -- By induction on the elements; each takes a unit of fuel and leaves a part less to read.
  induction h generalizing fuel with
  | nil => exact absurd rfl hne
  | @cons p v ps vs hp hps ih =>
      cases fuel with
      | zero => exact absurd hfuel (Nat.not_lt_zero _)
      | succ fuel =>
          cases hps with
          | nil =>
              rw [joined_singleton, List.append_nil] at hfuel
              have hread := hp ((lineAt outer).toList ++ ']' :: rest)
                (by rw [lineAt_toList]; exact endsValue_newline _) fuel (Nat.le_of_lt_succ hfuel)
              rw [joined_singleton]
              simp only [readItems?, hread, skipSpace_lineAt,
                skipSpace_cons (show isSpace ']' = false by decide)]
          | @cons q w qs ws hq hqs =>
              have hshorter := joined_length inner p q qs
              have hread := hp (separator inner ++ joined inner (q :: qs)
                ((lineAt outer).toList ++ ']' :: rest)) (endsValue_separator inner _) fuel
                (by omega)
              have hothers := ih (List.cons_ne_nil q qs) fuel (by omega)
              have hstarts : ∃ c ds, q = c :: ds ∧ isSpace c = false := by
                rcases hq.starts with ⟨c, ds, hcs, hc, -⟩
                exact ⟨c, ds, hcs, hc⟩
              rw [joined_cons]
              rw [separator, List.cons_append] at hread ⊢
              simp only [readItems?, hread, skipSpace_cons (show isSpace ',' = false by decide),
                skipSpace_joined inner hstarts, hothers, Option.map_some]

/-- The text stands for the member of a record. -/
def SpellsMember (cs : List Char) (member : String × Value) : Prop :=
  ∃ p, cs = (quote member.1).toList ++ ':' :: ' ' :: p ∧ Spells p member.2

/-- A member of a record is read up to what follows it. -/
theorem readMembers?_member {cs : List Char} {member : String × Value}
    (h : SpellsMember cs member) {rest : List Char} (hrest : endsValue rest) {fuel : Nat}
    (hfuel : cs.length ≤ fuel) :
    readMembers? (fuel + 1) (cs ++ rest)
      = match skipSpace rest with
        | '\x7d' :: behind => some ([member], behind)
        | ',' :: behind =>
          (readMembers? fuel (skipSpace behind)).map fun (ms, after) => (member :: ms, after)
        | _ => none := by
  rcases h with ⟨p, rfl, hp⟩
  rcases readText?_quote member.1 (':' :: ' ' :: (p ++ rest)) with ⟨ds, hds, hname⟩
  rcases hp.starts with ⟨c, es, hc, hspace, -⟩
  have hskip : skipSpace (' ' :: (p ++ rest)) = p ++ rest := by
    rw [hc]
    exact skipSpace_cons hspace _
  rw [List.length_append, List.length_cons, List.length_cons] at hfuel
  have hread := hp rest hrest fuel (by omega)
  rw [List.append_assoc, List.cons_append, List.cons_append, hds]
  simp only [readMembers?, hname, skipSpace_cons (show isSpace ':' = false by decide), hskip,
    hread]
  all_goals rfl

/-- The members of a record are read up to the bracket that closes it. -/
theorem readMembers?_joined {parts : List (List Char)} {entries : List (String × Value)}
    (h : List.Forall₂ SpellsMember parts entries) (hne : parts ≠ []) (inner outer : Nat)
    (rest : List Char) (fuel : Nat) (hfuel : (joined inner parts []).length < fuel) :
    readMembers? fuel (joined inner parts ((lineAt outer).toList ++ '\x7d' :: rest))
      = some (entries, rest) := by
  induction h generalizing fuel with
  | nil => exact absurd rfl hne
  | @cons p e ps es hp hps ih =>
      cases fuel with
      | zero => exact absurd hfuel (Nat.not_lt_zero _)
      | succ fuel =>
          cases hps with
          | nil =>
              rw [joined_singleton, List.append_nil] at hfuel
              rw [joined_singleton, readMembers?_member hp
                (by rw [lineAt_toList]; exact endsValue_newline _) (Nat.le_of_lt_succ hfuel),
                skipSpace_lineAt, skipSpace_cons (show isSpace '\x7d' = false by decide)]
              rfl
          | @cons q f qs fs hq hqs =>
              have hshorter := joined_length inner p q qs
              have hothers := ih (List.cons_ne_nil q qs) fuel (by omega)
              have hstarts : ∃ c ds, q = c :: ds ∧ isSpace c = false := by
                rcases hq with ⟨r, rfl, -⟩
                rw [quote_toList]
                exact ⟨'"', _, rfl, by decide⟩
              rw [joined_cons, readMembers?_member hp (endsValue_separator inner _) (by omega),
                separator, List.cons_append, skipSpace_cons (show isSpace ',' = false by decide)]
              simp only [skipSpace_joined inner hstarts, hothers, Option.map_some]

theorem enclosed_toList {opening closing : String} {o c : Char} (hopening : opening.toList = [o])
    (hclosing : closing.toList = [c]) (level : Nat) (p : String) (ps : List String)
    (rest : List Char) :
    (enclosed opening closing level (p :: ps)).toList ++ rest
      = o :: ((lineAt (level + 1)).toList ++ joined (level + 1) (p.toList :: ps.map String.toList)
        ((lineAt level).toList ++ c :: rest)) := by
  have hseparator : ("," ++ lineAt (level + 1)).toList = separator (level + 1) := by
    rw [String.toList_append]
    rfl
  rw [enclosed, if_neg (by rw [List.isEmpty_cons]; decide)]
  simp only [String.toList_append, String.toList_intercalate, hseparator, hopening, hclosing,
    List.append_assoc, joined, List.cons_append, List.nil_append, List.map_cons]

theorem enclosed_nil {opening closing : String} {o c : Char} (hopening : opening.toList = [o])
    (hclosing : closing.toList = [c]) (level : Nat) :
    (enclosed opening closing level []).toList = [o, c] := by
  rw [enclosed, if_pos List.isEmpty_nil, String.toList_append, hopening, hclosing]
  rfl

/-- The text of a list or record is longer than that of its parts together. -/
theorem enclosed_length {opening closing : String} {o c : Char} (hopening : opening.toList = [o])
    (hclosing : closing.toList = [c]) (level : Nat) (p : String) (ps : List String) :
    (joined (level + 1) (p.toList :: ps.map String.toList) []).length + 1
      < (enclosed opening closing level (p :: ps)).toList.length := by
  have htext := enclosed_toList hopening hclosing level p ps []
  rw [List.append_nil] at htext
  simp only [htext, joined, List.length_cons, List.length_append, lineAt_toList, List.length_nil]
  omega

theorem readValue?_list (fuel : Nat) {ds es : List Char} {c : Char} (h : skipSpace ds = c :: es)
    (hc : c ≠ ']') : readValue? (fuel + 1) ('[' :: ds)
      = (readItems? fuel (c :: es)).map fun (items, rest) => (.list items, rest) := by
  simp only [readValue?, h]
  split
  · rename_i hcons
    exact absurd (List.cons.inj hcons).1 hc
  · rfl

theorem readValue?_record (fuel : Nat) {ds es : List Char} {c : Char} (h : skipSpace ds = c :: es)
    (hc : c ≠ '\x7d') : readValue? (fuel + 1) ('\x7b' :: ds)
      = (readMembers? fuel (c :: es)).map fun (members, rest) =>
          (.record (Table.ofEntries members), rest) := by
  simp only [readValue?, h]
  split
  · rename_i hcons
    exact absurd (List.cons.inj hcons).1 hc
  · rfl

theorem spells_list (level : Nat) {parts : List String} {items : List Value}
    (h : List.Forall₂ Spells (parts.map String.toList) items) :
    Spells (enclosed "[" "]" level parts).toList (.list items) := by
  have hopening : "[".toList = ['['] := rfl
  have hclosing : "]".toList = [']'] := rfl
  intro rest hrest fuel hfuel
  cases parts with
  | nil =>
      cases h
      rw [enclosed_nil hopening hclosing] at hfuel ⊢
      cases fuel with
      | zero => exact absurd hfuel (by decide)
      | succ fuel => rfl
  | cons p ps =>
      have hlength := enclosed_length hopening hclosing level p ps
      cases fuel with
      | zero => omega
      | succ fuel =>
          rw [List.map_cons] at h
          rcases List.forall₂_cons_left_iff.mp h with ⟨v, vs, hv, -, rfl⟩
          rcases hv.starts with ⟨c, ds, hc, hspace, hbracket⟩
          rcases joined_starts (level + 1) hc (ps.map String.toList)
            ((lineAt level).toList ++ ']' :: rest) with ⟨es, hes⟩
          have hitems := readItems?_joined h (List.cons_ne_nil _ _) (level + 1) level rest
            fuel (by omega)
          rw [hes] at hitems
          rw [enclosed_toList hopening hclosing, hes,
            readValue?_list fuel ((skipSpace_lineAt _ _).trans (skipSpace_cons hspace es)) hbracket,
            hitems]
          rfl

theorem spells_record (level : Nat) {parts : List String} {entries : List (String × Value)}
    (hnodup : (Table.names entries).Nodup)
    (h : List.Forall₂ SpellsMember (parts.map String.toList) entries) :
    Spells (enclosed "\x7b" "\x7d" level parts).toList (.record entries) := by
  have hopening : "\x7b".toList = ['\x7b'] := rfl
  have hclosing : "\x7d".toList = ['\x7d'] := rfl
  intro rest hrest fuel hfuel
  cases parts with
  | nil =>
      cases h
      rw [enclosed_nil hopening hclosing] at hfuel ⊢
      cases fuel with
      | zero => exact absurd hfuel (by decide)
      | succ fuel => rfl
  | cons p ps =>
      have hlength := enclosed_length hopening hclosing level p ps
      cases fuel with
      | zero => omega
      | succ fuel =>
          rw [List.map_cons] at h
          rcases List.forall₂_cons_left_iff.mp h with ⟨e, es, ⟨q, hq, -⟩, -, rfl⟩
          rw [quote_toList, List.cons_append] at hq
          rcases joined_starts (level + 1) hq (ps.map String.toList)
            ((lineAt level).toList ++ '\x7d' :: rest) with ⟨cs, hcs⟩
          have hmembers := readMembers?_joined h (List.cons_ne_nil _ _) (level + 1) level rest
            fuel (by omega)
          rw [hcs] at hmembers
          rw [enclosed_toList hopening hclosing, hcs,
            readValue?_record fuel ((skipSpace_lineAt _ _).trans (skipSpace_cons (by decide) cs))
              (by decide), hmembers]
          simp only [Option.map_some, Table.ofEntries_of_nodup hnodup]

-- Plain data

/-- Plain data that can be written and read back. -/
inductive Datum : Value → Prop where
  | null : Datum .null
  | bool (b : Bool) : Datum (.bool b)
  /-- An integer that can be written. -/
  | int {n : Int} (h : (Value.int n).writable = true) : Datum (.int n)
  | float (x : Float) : Datum (.float x)
  | text (s : String) : Datum (.text s)
  | list {items : List Value} (h : ∀ v ∈ items, Datum v) : Datum (.list items)
  /-- A record without repeated names. -/
  | record {entries : List (String × Value)} (hnodup : (Table.names entries).Nodup)
      (h : ∀ e ∈ entries, Datum e.2) : Datum (.record entries)

/-- A size that may be one of the settings is data if it can be written. -/
theorem Datum.of_size {v : Value} {n : Int} (hv : v.writable = true)
    (h : v = .int n ∨ Datum v) : Datum v := by
  rcases h with rfl | h
  · exact .int hv
  · exact h

theorem writeItems_spelled {level : Nat} {items : List Value}
    (h : ∀ v ∈ items, ∃ text, writeAt level v = .ok text ∧ Spells text.toList v) :
    ∃ parts, writeItems level items = .ok parts ∧
      List.Forall₂ Spells (parts.map String.toList) items := by
  induction items with
  | nil => exact ⟨[], by rw [writeItems], .nil⟩
  | cons v vs ih =>
      rw [List.forall_mem_cons] at h
      rcases h.1 with ⟨text, hwrite, hspells⟩
      rcases ih h.2 with ⟨parts, hparts, hall⟩
      refine ⟨text :: parts, ?_, .cons hspells hall⟩
      rw [writeItems, hwrite, hparts]
      rfl

theorem writeMembers_spelled {level : Nat} {entries : List (String × Value)}
    (h : ∀ e ∈ entries, ∃ text, writeAt level e.2 = .ok text ∧ Spells text.toList e.2) :
    ∃ parts, writeMembers level entries = .ok parts ∧
      List.Forall₂ SpellsMember (parts.map String.toList) entries := by
  induction entries with
  | nil => exact ⟨[], by rw [writeMembers], .nil⟩
  | cons e es ih =>
      obtain ⟨k, v⟩ := e
      rw [List.forall_mem_cons] at h
      rcases h.1 with ⟨text, hwrite, hspells⟩
      rcases ih h.2 with ⟨parts, hparts, hall⟩
      refine ⟨(quote k ++ ": " ++ text) :: parts, ?_, .cons ⟨text.toList, ?_, hspells⟩ hall⟩
      · rw [writeMembers, hwrite, hparts]
        rfl
      · rw [String.toList_append, String.toList_append, List.append_assoc]
        rfl

/-- Plain data are written, and the text spells them. -/
theorem Datum.spelled {v : Value} (h : Datum v) (level : Nat) :
    ∃ text, writeAt level v = .ok text ∧ Spells text.toList v := by
  induction h generalizing level with
  | null => exact ⟨_, by rw [writeAt], spells_null⟩
  | bool b => exact ⟨_, by rw [writeAt], spells_bool b⟩
  | int h => exact ⟨_, by rw [writeAt, if_pos h], spells_integer h⟩
  | float x => exact ⟨_, by rw [writeAt], spells_float x⟩
  | text s => exact ⟨_, by rw [writeAt], spells_text s⟩
  | list _ ih =>
      rcases writeItems_spelled fun v hv => ih v hv (level + 1) with ⟨parts, hparts, hall⟩
      exact ⟨_, by rw [writeAt, hparts]; rfl, spells_list level hall⟩
  | record hnodup _ ih =>
      rcases writeMembers_spelled fun e he => ih e he (level + 1) with ⟨parts, hparts, hall⟩
      exact ⟨_, by rw [writeAt, hparts]; rfl, spells_record level hnodup hall⟩

/-- Plain data are written, and read as written, with a line end behind them. -/
theorem read?_write {v : Value} (h : Datum v) :
    ∃ text, write v = .ok text ∧ read? (text ++ "\n") = some v := by
  rcases h.spelled 0 with ⟨text, hwrite, hspells⟩
  refine ⟨text, hwrite, ?_⟩
  have htext : (text ++ "\n").toList = text.toList ++ ['\n'] := by
    rw [String.toList_append]
    rfl
  rcases hspells.starts with ⟨c, ds, hc, hspace, -⟩
  have hskip : skipSpace (text.toList ++ ['\n']) = text.toList ++ ['\n'] := by
    rw [hc]
    exact skipSpace_cons hspace _
  have hread := hspells ['\n'] (endsValue_newline []) (2 * (text.toList ++ ['\n']).length + 1) (by
    rw [List.length_append]
    omega)
  simp only [read?, htext, hskip, hread]
  rfl

end Json

end WidgetSync
