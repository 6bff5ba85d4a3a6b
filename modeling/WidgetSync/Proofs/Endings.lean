import Mathlib.Data.List.Induction
import Mathlib.Data.List.Nodup
import WidgetSync.Format.Registry
import WidgetSync.Proofs.Properties

/-!
# The Format That Owns an Ending

Which format is chosen for a file, by whoever has registered an ending of its name.

Formats become known one after the other, with any endings and under any names. The table of
endings remembers for each of them who had it first, in the order in which they came up. The search
for a file goes through this table and keeps the longest ending so far that fits, so the answer
seems to depend on the order. It does not: two endings of one file name that are equally long are
the same, so among those that fit there is only one of the greatest length.

That leaves two questions, which ending decides and who was the first to have it. Formats without a
common ending can change places without changing either, and formats that come later can only bring
longer endings.

## Main definitions

* `Registry.ofFormats`: Formats made known one after the other.
* `Format.has`: The format has an ending, in whatever case it gives it.
* `Registry.Fits`: A file name ends like this.
* `Registry.Decides`: An ending decides for a file, and a format was the first to have it.
* `Format.Apart`: Two formats have no common ending.
* `Registry.Reordered`: The same formats in another order, but for those with a common ending.

## Theorems

* `Registry.get?_endings`: The table has the first format with an ending.
* `Registry.Best.next`: What one more entry does to the search.
* `Registry.forFile?_eq_some_iff`, `Registry.forFile?_eq_none_iff`: What the search finds.
* `Registry.Reordered.find?_has`: Another order has the same first formats.
* `Registry.longest_then_first`: The longest ending decides, and then who had it first.
-/

namespace WidgetSync

/-- The format has the ending, in whatever case it gives it. -/
def Format.has (format : Format) (ending : String) : Bool :=
  format.extensions.any fun extension => Registry.folded extension == ending

/-- No ending belongs to both formats. -/
def Format.Apart (f g : Format) : Prop :=
  ∀ ending, f.has ending = true → g.has ending = false

/-- What holds of the endings of a format is seen from its list. -/
theorem Format.forall_has {format : Format} {p : String → Prop} :
    (∀ ending, format.has ending = true → p ending)
      ↔ ∀ extension ∈ format.extensions, p (Registry.folded extension) := by
  constructor
  · intro h extension hmem
    exact h _ (List.any_eq_true.mpr ⟨extension, hmem, beq_self_eq_true _⟩)
  · intro h ending hhas
    obtain ⟨extension, hmem, heq⟩ := List.any_eq_true.mp hhas
    rw [← beq_iff_eq.mp heq]
    exact h extension hmem

instance (f g : Format) : Decidable (f.Apart g) :=
  decidable_of_iff (∀ extension ∈ f.extensions, g.has (Registry.folded extension) = false)
    (Format.forall_has (p := fun ending => g.has ending = false)).symm

namespace Registry

/-- The registry of some formats that were made known one after the other. -/
def ofFormats (formats : List Format) : Registry :=
  formats.foldl register {}

/-- The name of the file, without regard to case, ends like this. -/
def Fits (ending file : String) : Prop :=
  ending.toList <:+ (folded file).toList

instance (ending file : String) : Decidable (Fits ending file) :=
  inferInstanceAs (Decidable (_ <:+ _))

/-- Among some formats this ending decides for the file, and this format was the first to have
    it. -/
structure Decides (formats : List Format) (file ending : String) (format : Format) : Prop where
  /-- There is something to the ending. -/
  nonempty : ending ≠ ""
  /-- The file has the ending. -/
  fits : Fits ending file
  /-- No format has a longer one that the file has too. -/
  longest : ∀ g ∈ formats, ∀ other, g.has other = true → Fits other file →
    other.length ≤ ending.length
  /-- No format had it earlier. -/
  first : formats.find? (·.has ending) = some format

/-- The same formats in another order. Only formats without a common ending have changed places. -/
inductive Reordered : List Format → List Format → Prop
  /-- There are no formats. -/
  | nil : Reordered [] []
  /-- The first format is the same. -/
  | cons (f : Format) {fs gs : List Format} : Reordered fs gs → Reordered (f :: fs) (f :: gs)
  /-- The first two formats have changed places. -/
  | swap {f g : Format} (fs : List Format) : f.Apart g → Reordered (f :: g :: fs) (g :: f :: fs)
  /-- One such change after the other. -/
  | trans {fs gs hs : List Format} : Reordered fs gs → Reordered gs hs → Reordered fs hs

/-- Two endings of one file that are equally long are the same. -/
theorem Fits.eq_of_length {a b file : String} (ha : Fits a file) (hb : Fits b file)
    (h : a.length = b.length) : a = b := by
  rw [← String.length_toList, ← String.length_toList] at h
  have hsuffix := List.suffix_of_suffix_length_le ha hb (Nat.le_of_eq h)
  exact String.toList_inj.mp (hsuffix.eq_of_length h)

theorem get?_claim (format : Format) (endings : Table Format) (extension ending : String) :
    (claim format endings extension).get? ending
      = (endings.get? ending).or (if folded extension = ending then some format else none) := by
  unfold claim
  by_cases heq : folded extension = ending
  · rw [if_pos heq, heq, Table.has]
    cases hget : endings.get? ending with
    | some f => simp [hget]
    | none => simp [Table.get?_set_self]
  · rw [if_neg heq, Option.or_none]
    by_cases hhas : endings.has (folded extension) = true
    · rw [if_pos hhas]
    · rw [if_neg hhas, Table.get?_set_of_ne _ _ (Ne.symm heq)]

theorem get?_endings_register (r : Registry) (format : Format) (ending : String) :
    (r.register format).endings.get? ending
      = (r.endings.get? ending).or (if format.has ending then some format else none) := by
  -- The endings are claimed one after the other, and the first claim counts.
  have hclaims : ∀ (extensions : List String) (endings : Table Format),
      (extensions.foldl (claim format) endings).get? ending = (endings.get? ending).or
        (if extensions.any (fun e => folded e == ending) then some format else none) := by
    intro extensions
    induction extensions with
    | nil => exact fun endings => (Option.or_none).symm
    | cons e extensions ih =>
        intro endings
        rw [List.foldl_cons, ih, get?_claim, Option.or_assoc, List.any_cons]
        by_cases heq : folded e = ending
        · simp [heq]
        · simp [heq]
  exact hclaims format.extensions r.endings

theorem get?_endings_foldl (r : Registry) (formats : List Format) (ending : String) :
    (formats.foldl register r).endings.get? ending
      = (r.endings.get? ending).or (formats.find? (·.has ending)) := by
  induction formats generalizing r with
  | nil => exact (Option.or_none).symm
  | cons f formats ih =>
      rw [List.foldl_cons, ih, get?_endings_register, Option.or_assoc, List.find?_cons]
      by_cases hf : f.has ending = true
      · simp [hf]
      · simp [hf]

/-- The table has the first format with an ending. -/
theorem get?_endings (formats : List Format) (ending : String) :
    (ofFormats formats).endings.get? ending = formats.find? (·.has ending) := by
  rw [ofFormats, get?_endings_foldl]
  rfl

theorem nodup_endings_register {r : Registry} (h : r.endings.names.Nodup) (format : Format) :
    (r.register format).endings.names.Nodup := by
  refine List.foldlRecOn (motive := fun endings : Table Format => endings.names.Nodup)
    format.extensions (claim format) h fun endings hendings e _ => ?_
  unfold claim
  split
  · exact hendings
  · exact Table.nodup_set hendings _ _

/-- Each ending is in the table once. -/
theorem nodup_endings (formats : List Format) : (ofFormats formats).endings.names.Nodup :=
  List.foldlRecOn (motive := fun r => r.endings.names.Nodup) formats register List.nodup_nil
    fun _ hr f _ => nodup_endings_register hr f

theorem mem_endings_iff {formats : List Format} {ending : String} {format : Format} :
    (ending, format) ∈ (ofFormats formats).endings
      ↔ formats.find? (·.has ending) = some format := by
  rw [← get?_endings]
  exact ⟨Table.get?_of_mem (nodup_endings formats), Table.mem_of_get?⟩

/-- The best of some entries for a name: one that fits, unless there is none, and no other one that
    fits is longer. -/
structure Best (name : List Char) (entries : Table Format) (best : Option (String × Format)) :
    Prop where
  /-- It is an entry that fits. -/
  fits : ∀ e, best = some e → e ∈ entries ∧ e.1.toList <:+ name ∧ e.1 ≠ ""
  /-- No entry that fits is longer. -/
  longest : ∀ e ∈ entries, e.1.toList <:+ name → e.1.length ≤ best.elim 0 (·.1.length)

/-- With one more entry, the better of the two is the best. -/
theorem Best.next {name : List Char} {entries : Table Format} {best : Option (String × Format)}
    (h : Best name entries best) (entry : String × Format) :
    Best name (entries ++ [entry]) (better name best entry) := by
  unfold better
  by_cases hbetter : entry.1.toList.isSuffixOf name
      && decide ((best.elim 0 fun b => b.1.length) < entry.1.length)
  · rw [if_pos hbetter]
    rw [Bool.and_eq_true, List.isSuffixOf_iff_suffix, decide_eq_true_eq] at hbetter
    obtain ⟨hfits, hlonger⟩ := hbetter
    refine ⟨fun e he => ?_, fun e he hsuffix => ?_⟩
    · obtain rfl := Option.some.inj he
      refine ⟨List.mem_append_right _ List.mem_cons_self, hfits, fun hempty => ?_⟩
      rw [hempty, String.length_empty] at hlonger
      exact Nat.not_lt_zero _ hlonger
    · rcases List.mem_append.mp he with he | he
      · exact Nat.le_trans (h.longest e he hsuffix) (Nat.le_of_lt hlonger)
      · rw [List.mem_singleton.mp he]
        exact Nat.le_refl _
  · rw [if_neg hbetter]
    refine ⟨fun e he => ?_, fun e he hsuffix => ?_⟩
    · obtain ⟨hmem, hrest⟩ := h.fits e he
      exact ⟨List.mem_append_left _ hmem, hrest⟩
    · rcases List.mem_append.mp he with he | he
      · exact h.longest e he hsuffix
      · rw [List.mem_singleton.mp he] at hsuffix ⊢
        refine Nat.le_of_not_lt fun hlonger => hbetter ?_
        rw [Bool.and_eq_true, List.isSuffixOf_iff_suffix, decide_eq_true_eq]
        exact ⟨hsuffix, hlonger⟩

/-- The search finds the best entry. -/
theorem best_foldl (name : List Char) (entries : Table Format) :
    Best name entries (entries.foldl (better name) none) := by
  induction entries using List.reverseRecOn with
  | nil =>
      refine ⟨fun e he => ?_, fun e he => absurd he List.not_mem_nil⟩
      exact absurd he (by simp only [List.foldl_nil, reduceCtorEq, not_false_eq_true])
  | append_singleton entries entry ih =>
      rw [List.foldl_append, List.foldl_cons, List.foldl_nil]
      exact ih.next entry

variable {formats : List Format} {file : String}

theorem mem_of_first {ending : String} {format : Format}
    (h : formats.find? (·.has ending) = some format) :
    format ∈ formats ∧ format.has ending = true :=
  ⟨List.mem_of_find?_eq_some h, @List.find?_some _ (fun f : Format => f.has ending) _ _ h⟩

/-- An ending that some format has is in the table. -/
theorem exists_first {g : Format} {ending : String} (hg : g ∈ formats)
    (h : g.has ending = true) : ∃ format, (ending, format) ∈ (ofFormats formats).endings := by
  have hsome : (formats.find? (·.has ending)).isSome = true := by
    rw [List.find?_isSome]
    exact ⟨g, hg, h⟩
  obtain ⟨format, hformat⟩ := Option.isSome_iff_exists.mp hsome
  exact ⟨format, mem_endings_iff.mpr hformat⟩

/-- The best entry of the table is what decides. -/
theorem decides_of_best {e : String × Format}
    (h : Best (folded file).toList (ofFormats formats).endings (some e)) :
    Decides formats file e.1 e.2 := by
  obtain ⟨hmem, hfits, hnonempty⟩ := h.fits e rfl
  refine ⟨hnonempty, hfits, fun g hg other hother hsuffix => ?_, mem_endings_iff.mp hmem⟩
  obtain ⟨format, hformat⟩ := exists_first hg hother
  exact h.longest (other, format) hformat hsuffix

/-- What decides is the same ending with the same format. -/
theorem Decides.unique {a b : String} {f g : Format} (ha : Decides formats file a f)
    (hb : Decides formats file b g) : a = b ∧ f = g := by
  obtain ⟨hf, hfa⟩ := mem_of_first ha.first
  obtain ⟨hg, hgb⟩ := mem_of_first hb.first
  have heq : a = b := ha.fits.eq_of_length hb.fits
    (Nat.le_antisymm (hb.longest f hf a hfa ha.fits) (ha.longest g hg b hgb hb.fits))
  subst heq
  exact ⟨rfl, Option.some.inj (ha.first.symm.trans hb.first)⟩

theorem forFile?_eq_some_iff {format : Format} :
    (ofFormats formats).forFile? file = some format
      ↔ ∃ ending, Decides formats file ending format := by
  have hbest := best_foldl (folded file).toList (ofFormats formats).endings
  unfold forFile?
  constructor
  · intro h
    obtain ⟨e, he, rfl⟩ := Option.map_eq_some_iff.mp h
    rw [he] at hbest
    exact ⟨e.1, decides_of_best hbest⟩
  · rintro ⟨ending, h⟩
    cases hfound : (ofFormats formats).endings.foldl (better (folded file).toList) none with
    | none =>
        -- The entry of the ending that decides would have been found.
        rw [hfound] at hbest
        have hlength := hbest.longest _ (mem_endings_iff.mpr h.first) h.fits
        exact absurd (String.length_eq_zero_iff.mp (Nat.le_zero.mp hlength)) h.nonempty
    | some e =>
        rw [hfound] at hbest
        rw [Option.map_some, ((decides_of_best hbest).unique h).2]

theorem forFile?_eq_none_iff :
    (ofFormats formats).forFile? file = none
      ↔ ∀ f ∈ formats, ∀ ending, f.has ending = true → Fits ending file → ending = "" := by
  have hbest := best_foldl (folded file).toList (ofFormats formats).endings
  unfold forFile?
  rw [Option.map_eq_none_iff]
  constructor
  · intro hnone f hf ending hending hfits
    rw [hnone] at hbest
    obtain ⟨format, hformat⟩ := exists_first hf hending
    exact String.length_eq_zero_iff.mp (Nat.le_zero.mp (hbest.longest _ hformat hfits))
  · intro hnothing
    cases hfound : (ofFormats formats).endings.foldl (better (folded file).toList) none with
    | none => rfl
    | some e =>
        rw [hfound] at hbest
        obtain ⟨hmem, hfits, hnonempty⟩ := hbest.fits e rfl
        obtain ⟨hf, hhas⟩ := mem_of_first (mem_endings_iff.mp hmem)
        exact absurd (hnothing e.2 hf e.1 hhas hfits) hnonempty

/-- Another order has the same first formats. -/
theorem Reordered.find?_has {fs gs : List Format} (h : Reordered fs gs) (ending : String) :
    fs.find? (·.has ending) = gs.find? (·.has ending) := by
  induction h with
  | nil => rfl
  | cons f _ ih => rw [List.find?_cons, List.find?_cons, ih]
  | @swap f g fs hapart =>
      simp only [List.find?_cons]
      cases hf : f.has ending with
      | false => rfl
      | true => rw [hapart ending hf]
  | trans _ _ ih ih' => exact ih.trans ih'

theorem Reordered.mem_iff {fs gs : List Format} (h : Reordered fs gs) (f : Format) :
    f ∈ fs ↔ f ∈ gs := by
  induction h with
  | nil => exact Iff.rfl
  | cons g _ ih => rw [List.mem_cons, List.mem_cons, ih]
  | swap gs _ => simp only [List.mem_cons, or_left_comm]
  | trans _ _ ih ih' => exact ih.trans ih'

/-- Formats of which no two have a common ending can be put into any order. -/
theorem reordered_of_perm {fs gs : List Format} (h : fs.Perm gs)
    (hapart : ∀ f ∈ fs, ∀ g ∈ fs, f ≠ g → f.Apart g) : Reordered fs gs := by
  induction h with
  | nil => exact .nil
  | cons f _ ih =>
      exact .cons f (ih fun g hg g' hg' =>
        hapart g (List.mem_cons_of_mem f hg) g' (List.mem_cons_of_mem f hg'))
  | swap f g fs =>
      by_cases heq : g = f
      · subst heq
        have hrefl : ∀ hs : List Format, Reordered hs hs := fun hs => by
          induction hs with
          | nil => exact .nil
          | cons h _ ih => exact .cons h ih
        exact hrefl _
      · exact .swap fs (hapart g List.mem_cons_self f
          (List.mem_cons_of_mem g List.mem_cons_self) heq)
  | trans hfirst _ ih ih' =>
      exact .trans (ih hapart) (ih' fun f hf g hg =>
        hapart f (hfirst.mem_iff.mpr hf) g (hfirst.mem_iff.mpr hg))

theorem Decides.reordered {fs gs : List Format} (h : Reordered fs gs) {ending : String}
    {format : Format} (hdecides : Decides fs file ending format) :
    Decides gs file ending format where
  nonempty := hdecides.nonempty
  fits := hdecides.fits
  longest := fun g hg => hdecides.longest g ((h.mem_iff g).mpr hg)
  first := (h.find?_has ending).symm.trans hdecides.first

theorem Reordered.symm {fs gs : List Format} (h : Reordered fs gs) : Reordered gs fs := by
  induction h with
  | nil => exact .nil
  | cons f _ ih => exact .cons f ih
  | @swap f g fs hapart =>
      refine .swap fs fun ending hg => ?_
      -- What the one has the other has not, either way.
      cases hf : f.has ending with
      | false => rfl
      | true => exact absurd hg (by rw [hapart ending hf]; decide)
  | trans _ _ ih ih' => exact .trans ih' ih

theorem forFile?_reordered {fs gs : List Format} (h : Reordered fs gs) (file : String) :
    (ofFormats gs).forFile? file = (ofFormats fs).forFile? file := by
  refine Option.ext fun format => ?_
  rw [forFile?_eq_some_iff, forFile?_eq_some_iff]
  exact ⟨fun ⟨e, he⟩ => ⟨e, he.reordered h.symm⟩, fun ⟨e, he⟩ => ⟨e, he.reordered h⟩⟩

/-- What decides among formats and further ones decides among the former alone, if one of these has
    the ending. -/
theorem Decides.of_append {more : List Format} {ending : String} {format g : Format}
    (h : Decides (formats ++ more) file ending format) (hg : g ∈ formats)
    (hhas : g.has ending = true) : Decides formats file ending format where
  nonempty := h.nonempty
  fits := h.fits
  longest := fun f hf => h.longest f (List.mem_append_left more hf)
  first := by
    obtain ⟨f, hf⟩ := exists_first hg hhas
    have hfirst := h.first
    rw [List.find?_append, mem_endings_iff.mp hf, Option.some_or] at hfirst
    rw [mem_endings_iff.mp hf, hfirst]

/-- Further formats change the answer only to one of theirs, with a longer ending than any that
    fitted before. -/
theorem forFile?_append (formats more : List Format) (file : String) :
    (ofFormats (formats ++ more)).forFile? file = (ofFormats formats).forFile? file ∨
      ∃ ending, ∃ format ∈ more, (ofFormats (formats ++ more)).forFile? file = some format ∧
        Decides (formats ++ more) file ending format ∧
        ∀ f ∈ formats, ∀ other, f.has other = true → Fits other file →
          other.length < ending.length := by
  cases hfound : (ofFormats (formats ++ more)).forFile? file with
  | none =>
      left
      rw [forFile?_eq_none_iff] at hfound
      exact (forFile?_eq_none_iff.mpr fun f hf =>
        hfound f (List.mem_append_left more hf)).symm
  | some format =>
      obtain ⟨ending, hdecides⟩ := forFile?_eq_some_iff.mp hfound
      by_cases hold : ∃ g ∈ formats, g.has ending = true
      · obtain ⟨g, hg, hhas⟩ := hold
        exact .inl (forFile?_eq_some_iff.mpr ⟨ending, hdecides.of_append hg hhas⟩).symm
      · obtain ⟨hmem, hhas⟩ := mem_of_first hdecides.first
        refine .inr ⟨ending, format, ?_, rfl, hdecides, fun f hf other hother hfits => ?_⟩
        · exact (List.mem_append.mp hmem).resolve_left fun h => hold ⟨format, h, hhas⟩
        · refine Nat.lt_of_le_of_ne
            (hdecides.longest f (List.mem_append_left more hf) other hother hfits) fun heq => ?_
          -- Endings of one length are the same, and then the ending is not new.
          rw [hfits.eq_of_length hdecides.fits heq] at hother
          exact hold ⟨f, hf, hother⟩

/-- The longest ending of a file name decides, and among the formats that have it the one that
    became known first. So formats without a common ending may become known in any order, and
    further formats change the answer only to one of theirs, with a longer ending than any that
    fitted before. -/
theorem longest_then_first (formats : List Format) (file : String) :
    (∀ format, (ofFormats formats).forFile? file = some format
      ↔ ∃ ending, Decides formats file ending format) ∧
    ((ofFormats formats).forFile? file = none
      ↔ ∀ f ∈ formats, ∀ ending, f.has ending = true → Fits ending file → ending = "") ∧
    (∀ others, Reordered formats others →
      (ofFormats others).forFile? file = (ofFormats formats).forFile? file) ∧
    (∀ others, formats.Perm others → (∀ f ∈ formats, ∀ g ∈ formats, f ≠ g → f.Apart g) →
      (ofFormats others).forFile? file = (ofFormats formats).forFile? file) ∧
    ∀ more, (ofFormats (formats ++ more)).forFile? file = (ofFormats formats).forFile? file ∨
      ∃ ending, ∃ format ∈ more, (ofFormats (formats ++ more)).forFile? file = some format ∧
        Decides (formats ++ more) file ending format ∧
        ∀ f ∈ formats, ∀ other, f.has other = true → Fits other file →
          other.length < ending.length :=
  ⟨fun _ => forFile?_eq_some_iff, forFile?_eq_none_iff,
    fun _ h => forFile?_reordered h file,
    fun _ hperm hapart => forFile?_reordered (reordered_of_perm hperm hapart) file,
    fun more => forFile?_append formats more file⟩

/-- A format for forms, with endings in upper and lower case. -/
def form : Format :=
  { Format.markup with name := "form", extensions := [".ui.QML", "", ".Ui.Qml"] }

/-- A form goes to the format for forms, although markup was registered before it and has an ending
    of the form too. It does so in any other order. -/
theorem form_decided :
    Decides [.json, .markup, form] "Main.UI.qml" ".ui.qml" form ∧
    (∀ f ∈ [Format.json, .markup, form], ∀ g ∈ [Format.json, .markup, form], f ≠ g → f.Apart g) ∧
    Reordered [.json, .markup, form] [.json, form, .markup] ∧
    (ofFormats [.json, .markup, form]).forFile? "Main.UI.qml" = some form ∧
    (ofFormats [form, .markup, .json]).forFile? "Main.UI.qml" = some form ∧
    (ofFormats [.json, form, .markup]).forFile? "Main.UI.qml" = some form := by
  have hlongest : ∀ g ∈ [Format.json, .markup, form], ∀ extension ∈ g.extensions,
      Fits (folded extension) "Main.UI.qml" → (folded extension).length ≤ ".ui.qml".length := by
    decide +kernel
  have hdecides : Decides [.json, .markup, form] "Main.UI.qml" ".ui.qml" form :=
    ⟨by decide, by decide +kernel, fun g hg => Format.forall_has.mpr (hlongest g hg), rfl⟩
  have hapart : ∀ f ∈ [Format.json, .markup, form], ∀ g ∈ [Format.json, .markup, form],
      f.name ≠ g.name → f.Apart g := by
    decide +kernel
  have hall : ∀ f ∈ [Format.json, .markup, form], ∀ g ∈ [Format.json, .markup, form],
      f ≠ g → f.Apart g := fun f hf g hg hne =>
    hapart f hf g hg fun hname =>
      hne (List.inj_on_of_nodup_map (f := Format.name) (by decide) hf hg hname)
  have hreordered : Reordered [.json, .markup, form] [.json, form, .markup] :=
    .cons .json (.swap [] (hapart _ (by simp) _ (by simp) (by decide)))
  obtain ⟨hsome, -, horder, hperm, -⟩ := longest_then_first [.json, .markup, form] "Main.UI.qml"
  have hfound := (hsome form).mpr ⟨".ui.qml", hdecides⟩
  exact ⟨hdecides, hall, hreordered, hfound,
    (hperm [form, .markup, .json] (List.reverse_perm _).symm hall).trans hfound,
    (horder _ hreordered).trans hfound⟩

end Registry

end WidgetSync
