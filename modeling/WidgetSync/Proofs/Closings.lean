import WidgetSync.Proofs.Borders
import WidgetSync.Proofs.Reached

/-!
# Missing and Surplus Braces

What closing braces at the end of a text do.

The reader closes the blocks that are open where a text ends, and takes no notice of a brace
that closes nothing. So the braces that a text ends with should not matter: it describes the
same document with those that are missing and with any number of others behind them. The end
may be anywhere, behind a name or a colon, between the words of a declaration, in a comment or
in a string. What makes this work is the end of a line in front of the braces. No lexeme goes
on over it but a comment or a string that is closed behind it, and there is nothing that could
close one; and no value goes on over it but one with a bracket open.

Two kinds of text are different. In a value between braces, or with a bracket open, the first
braces belong to the value. And an object in which a widget stands is its source text, with its
own brace or without. `EndsInside` excludes both where the text ends, and nowhere else. A
statement that is skipped may have brackets open. It takes some of the braces, and the end of
the text stands in for them.

What is cut off the text and what its statements do is the same in front of the braces as in front
of the end, as it is in front of any other tokens. It is left to show what the braces do.

## Main definitions

* `closingTokens`: The tokens of the end of a line and of closing braces.
* `EndsInside`: The text ends inside some blocks.

## Theorems

* `scan_braces`: A text is cut into the same tokens with the braces behind it.
* `Reading.outcome_braces`: Braces do what the end of the text does.
* `closings_immaterial`: The document is the same.
-/

namespace WidgetSync

namespace Markup

/-- The tokens of the end of a line, behind some blanks, and of closing braces. -/
def closingTokens (gap : List Char) (n : Nat) : List Token :=
  ⟨.newline, gap, ['\n']⟩ :: List.replicate n (closingBrace [])

theorem scan_replicate (n : Nat) :
    scan (List.replicate n '\x7d') = ⟨List.replicate n (closingBrace []), []⟩ := by
  induction n with
  | zero => rw [List.replicate_zero, scan, scanFrom, List.replicate_zero]
  | succ n ih =>
      have hbrace := lexes_mark (c := '\x7d') rfl (List.replicate n '\x7d')
      rw [List.replicate_succ, ← List.singleton_append, hbrace, ih]
      rfl

/-- The tokens of a text stay what they are if the end of a line and closing braces come behind
    it. What was skipped behind its last token is skipped before the end of the line. -/
theorem scan_braces (cs : List Char) (n : Nat) :
    ∃ gap, scan (cs ++ '\n' :: List.replicate n '\x7d')
      = ⟨(scan cs).tokens ++ closingTokens gap n, []⟩ := by
  have hharmless : ∀ c ∈ '\n' :: List.replicate n '\x7d', isHarmless c = true := by
    intro c hc
    rcases List.mem_cons.mp hc with rfl | hc
    · decide
    · rw [(List.mem_replicate.mp hc).2]
      decide
  obtain ⟨m, gap, hm, hscan⟩ := scanFrom_behind [] cs rfl hharmless
  -- The end of the line is not taken by what was skipped before it.
  have hzero : m = 0 := by
    rcases hm with rfl | hm
    · rfl
    · cases hm with
      | blanks => rfl
      | comment => rfl
  have hline := @scanFrom_token .newline '\n' [] (List.replicate n '\x7d') gap (lexeme_newline _)
  have hline : scanFrom gap ('\n' :: List.replicate n '\x7d') = ⟨closingTokens gap n, []⟩ :=
    hline.trans (by rw [scan_replicate]; rfl)
  refine ⟨gap, ?_⟩
  rw [scan, hscan, hzero, List.drop_zero, hline]
  rfl

/-- The block is an object. -/
def Frame.isObject : Frame → Bool
  | .object .. => true
  | _ => false

namespace Reading

/-- An object is open. -/
def inObject (r : Reading) : Bool :=
  r.frames.any Frame.isObject

variable {r : Reading} {tail : List Char} {ts : List Token}

theorem extended_of_inObject (h : r.inObject = false) (rest : List Token) :
    r.extended rest = r := by
  have hsame : ∀ f ∈ r.frames, f.extended rest = f := by
    intro f hf
    have hplain := List.any_eq_false.mp h f hf
    cases f with
    | object => exact absurd rfl hplain
    | _ => rfl
  rw [extended, List.map_congr_left hsame, List.map_id']

/-- Outside of objects a block closes in one way, whatever follows. -/
theorem close_of_inObject (h : r.inObject = false) (ts : List Token) :
    r.close false ts = r.close false [] ∧ (r.close false ts).inObject = false := by
  obtain ⟨window, roots, declared, frames⟩ := r
  rcases frames with _ | ⟨f, fs⟩
  · exact ⟨rfl, h⟩
  · obtain ⟨hf, hfs⟩ := Bool.or_eq_false_iff.mp h
    -- What is handed to the block below leaves it what it is.
    cases f with
    | object => exact absurd hf.symm Bool.false_ne_true
    | window => exact ⟨rfl, hfs⟩
    | _ =>
        refine ⟨rfl, ?_⟩
        rcases fs with _ | ⟨g, gs⟩
        · exact hfs
        · cases g with
          | _ => exact hfs

/-- Braces behind the end of a text close its blocks, and those that are too many do nothing.
    Blocks for which there is no brace are closed as well. -/
theorem outcome_braces (h : r.inObject = false) (n : Nat) :
    r.outcome tail (List.replicate n (closingBrace [])) = (r.closeAll false, false) := by
  induction n generalizing r with
  | zero => exact r.outcome_nil tail
  | succ n ih =>
      rw [List.replicate_succ]
      generalize List.replicate n (closingBrace []) = braces at ih ⊢
      by_cases hframes : r.frames = []
      · have hstep := Reading.step_topLevel hframes tail (closingBrace []) braces
        rw [outcome_next hstep, List.drop_zero, ih h]
      · have hstep := Reading.step_member hframes tail (closingBrace []) braces
        have hclose := close_of_inObject h braces
        have hend := outcome_close hframes tail
        rw [outcome_nil, outcome_nil] at hend
        rw [outcome_next hstep, List.drop_zero, ih hclose.2, hclose.1, hend]

/-- If no value is left open and no object is, a run comes to the same end if the end of a line
    and closing braces come behind its tokens. -/
theorem outcome_closings (gap : List Char) (n : Nat)
    (hvalues : ∀ st ∈ r.statements tail ts, st.unclosed = false)
    (hobject : (r.run tail ts).stopped = false → (r.last tail ts).inObject = false) :
    (r.extended (closingTokens gap n)).outcome [] (ts ++ closingTokens gap n)
      = r.outcome tail ts := by
  refine outcome_behind rfl [] hvalues fun hstopped j => ?_
  -- No object is open, so none has kept the braces.
  have hplain := hobject hstopped
  rw [extended_of_inObject hplain]
  cases j with
  | zero =>
      rw [List.drop_zero, closingTokens, outcome_next (step_newline _ [] _ rfl), List.drop_zero,
        outcome_braces hplain]
  | succ j => rw [closingTokens, List.drop_succ_cons, List.drop_replicate, outcome_braces hplain]

end Reading

/-- What has been read of a text when it ends or the reader is stopped, with the blocks that are
    open there. -/
def lastReading (s : Settings) (source : String) : Reading :=
  Reading.last { window := .usual s } (scan source.toList).tail (scan source.toList).tokens

/-- The reader is stopped in the text. -/
def isStopped (s : Settings) (source : String) : Bool :=
  (Reading.run { window := .usual s } (scan source.toList).tail
    (scan source.toList).tokens).stopped

/-- The text ends inside so many blocks of the window, of widgets and of groups. It does not end
    in an object, nor in a value between braces or with brackets open. Where the reader is stopped
    before, the blocks do not matter. -/
structure EndsInside (s : Settings) (source : String) (k : Nat) : Prop where
  values : ∀ st ∈ statements s source, st.unclosed = false
  blocks : isStopped s source = false →
    (lastReading s source).frames.length = k ∧ (lastReading s source).inObject = false

/-- Some closing braces. -/
def closings (n : Nat) : String :=
  String.ofList (List.replicate n '\x7d')

/-- Missing braces are put where the text ends, and surplus ones are ignored: with the end of a
    line, a brace for each block that is open and any number of others, a text describes the
    document that it describes without them. -/
theorem closings_immaterial (s : Settings) {source : String} {k : Nat}
    (h : EndsInside s source k) (m : Nat) :
    (readDocument s (source ++ "\n" ++ closings (k + m))).1 = (readDocument s source).1 := by
  have hchars : (source ++ "\n" ++ closings (k + m)).toList
      = source.toList ++ '\n' :: List.replicate (k + m) '\x7d' := by
    have hline : "\n".toList = ['\n'] := by decide
    rw [String.toList_append, String.toList_append, hline, closings, String.toList_ofList,
      List.append_assoc, List.singleton_append]
  obtain ⟨gap, hscan⟩ := scan_braces source.toList (k + m)
  rw [← hchars] at hscan
  have houtcome := Reading.outcome_closings gap (k + m) h.values
    fun hstopped => (h.blocks hstopped).2
  -- No object is open at the start, so nothing there keeps tokens.
  have hstart : Reading.extended { window := .usual s } (closingTokens gap (k + m))
      = { window := .usual s } := rfl
  rw [hstart] at houtcome
  have hreading := congrArg Prod.fst houtcome
  simp only [Reading.outcome] at hreading
  simp only [readDocument, hscan, hreading]

/-- A text that ends in a comment, in a group of a widget of the window. -/
def openGroup : String :=
  "Window \x7b\n Button \x7b x: 5; a: Gradient \x7b Stop \x7b \x7d \x7d\n"
    ++ " font \x7b bold: true // bold"

theorem openGroup_closed : EndsInside {} openGroup 3 ∧
    (readDocument {} (openGroup ++ "\n" ++ closings (3 + 2))).1
      = (readDocument {} openGroup).1 := by
  have hends : EndsInside {} openGroup 3 := by
    have hvalues : (statements {} openGroup).all (fun st => !st.unclosed) = true := by
      decide +kernel
    refine ⟨fun st hst => ?_, fun _ => by decide +kernel⟩
    simpa only [Bool.not_eq_true'] using List.all_eq_true.mp hvalues st hst
  exact ⟨hends, closings_immaterial {} hends 2⟩

end Markup

end WidgetSync
