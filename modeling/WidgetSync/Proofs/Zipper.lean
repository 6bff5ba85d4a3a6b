import WidgetSync.History

/-!
# Undo and Redo as a Zipper

What a history is, seen by someone who only goes back and forth in it.

A history keeps one line of snapshots with a place in it. Recording cuts the line
behind the place, lengthens it, drops what is too much in front and moves the place,
all at once. For its user there is no place: there is a current snapshot with a past
behind it and a future before it. Such a zipper is the picture of a history here. Its
past and its future are lists that begin next to the current snapshot, so that every
operation only touches their heads, and forgetting is `List.take`.

`Zipper.history` lays a zipper out as a line. Each operation of a history does to the
line what the operation of the same name does to the zipper, as long as the zipper is
no longer than the capacity, and no operation makes it longer. Hence the two answer
alike through every run.

## Main definitions

* `Zipper`: A current snapshot, its past and its future.
* `Zipper.history`: The line of snapshots of a zipper.
* `Command`: What a user asks for.
* `History.run`, `Zipper.run`: The answers to some commands.

## Theorems

* `Zipper.record_history`: Recording in the line is recording in the zipper.
* `Zipper.undo_history`, `Zipper.redo_history`: So is going back and forth.
* `Zipper.obey_history`, `Zipper.run_history`: A command, and a run of them.
* `History.run_zipper`: A history is a zipper with a bounded past.
-/

namespace WidgetSync

/-- A current snapshot between its past and its future, or nothing at all. -/
inductive Zipper where
  /-- There are no snapshots. -/
  | empty
  /-- A current snapshot. The past and the future begin with the snapshots next to it. -/
  | around (past : List String) (current : String) (future : List String)
deriving DecidableEq, Repr

/-- What a user of a history asks for. -/
inductive Command where
  /-- A new snapshot. -/
  | record (text : String)
  /-- One snapshot back. -/
  | undo
  /-- One snapshot forward. -/
  | redo
  /-- No snapshots. -/
  | clear
deriving DecidableEq, Repr

namespace Zipper

/-- The snapshots to go back to. -/
def past : Zipper → List String
  | empty => []
  | around past _ _ => past

/-- The snapshots to go forward to. -/
def future : Zipper → List String
  | empty => []
  | around _ _ future => future

/-- The current snapshot. -/
def current? : Zipper → Option String
  | empty => none
  | around _ current _ => some current

/-- The zipper with a new snapshot, whose past has so much room. -/
def record (room : Nat) (text : String) : Zipper → Zipper
  | empty => around [] text []
  | around past current _ => around ((current :: past).take room) text []

/-- One snapshot back, and that snapshot. -/
def undo : Zipper → Zipper × Option String
  | around (older :: past) current future => (around past older (current :: future), some older)
  | z => (z, none)

/-- One snapshot forward, and that snapshot. -/
def redo : Zipper → Zipper × Option String
  | around past current (newer :: future) => (around (current :: past) newer future, some newer)
  | z => (z, none)

/-- The zipper after a command, and its answer. -/
def obey (room : Nat) (z : Zipper) : Command → Zipper × Option String
  | .record text => (z.record room text, none)
  | .undo => z.undo
  | .redo => z.redo
  | .clear => (empty, none)

/-- The zipper after some commands, and their answers. -/
def run (room : Nat) : List Command → Zipper → Zipper × List (Option String)
  | [], z => (z, [])
  | c :: cs, z =>
    let (z, answer) := z.obey room c
    let (z, answers) := run room cs z
    (z, answer :: answers)

/-- All snapshots, the oldest first. -/
def snapshots : Zipper → List String
  | empty => []
  | around past current future => past.reverse ++ current :: future

/-- The place of the current snapshot among all of them. -/
def place : Zipper → Int
  | empty => -1
  | around past _ _ => past.length

/-- The history whose line of snapshots is that of the zipper. -/
def history (capacity : Int) (z : Zipper) : History where
  capacity := capacity
  entries := z.snapshots
  index := z.place

end Zipper

namespace History

/-- The history after a command, and its answer. -/
def obey (h : History) : Command → History × Option String
  | .record text => (h.record text, none)
  | .undo => h.undo
  | .redo => h.redo
  | .clear => (h.clear, none)

/-- The history after some commands, and their answers. -/
def run : List Command → History → History × List (Option String)
  | [], h => (h, [])
  | c :: cs, h =>
    let (h, answer) := h.obey c
    let (h, answers) := run cs h
    (h, answer :: answers)

end History

namespace Zipper

/-- Nothing is counted twice and nothing is left out. -/
theorem length_snapshots_around (past : List String) (current : String) (future : List String) :
    (around past current future).snapshots.length = past.length + 1 + future.length := by
  simp only [snapshots, List.length_append, List.length_reverse, List.length_cons]
  omega

/-- The place is a place in the line, or it is in front of an empty line. -/
theorem place_bounds (z : Zipper) : -1 ≤ z.place ∧ z.place < z.snapshots.length := by
  cases z with
  | empty => exact ⟨Int.le_refl _, by decide⟩
  | around past current future =>
      rw [length_snapshots_around, place]
      omega

theorem place_eq_neg_one_iff (z : Zipper) : z.place = -1 ↔ z.snapshots = [] := by
  cases z with
  | empty => exact ⟨fun _ => rfl, fun _ => rfl⟩
  | around past current future =>
      have hplace : (around past current future).place ≠ -1 := by
        simp only [place]
        omega
      have hline : (around past current future).snapshots ≠ [] :=
        List.append_ne_nil_of_right_ne_nil _ (List.cons_ne_nil current future)
      exact ⟨fun h => absurd h hplace, fun h => absurd h hline⟩

/-- Unless the line is empty, it is the past, the current snapshot and the future. -/
theorem length_snapshots {z : Zipper} (h : z.snapshots ≠ []) :
    z.snapshots.length = z.past.length + 1 + z.future.length := by
  cases z with
  | empty => exact absurd rfl h
  | around past current future => exact length_snapshots_around past current future

/-- The current snapshot of the line stands at its place. -/
theorem current?_history (capacity : Int) (z : Zipper) :
    (z.history capacity).current? = z.current? := by
  cases z with
  | empty => rfl
  | around past current future =>
      have hplace : ¬ ((around past current future).history capacity).index < 0 := by
        simp only [history, place]
        omega
      have hpast : past.reverse.length = past.length := List.length_reverse
      rw [History.current?, if_neg hplace]
      simp only [history, place, snapshots, current?, Int.toNat_natCast]
      rw [List.getElem?_append_right (by omega), hpast, Nat.sub_self, List.getElem?_cons_zero]

theorem canUndo_history (capacity : Int) (z : Zipper) :
    (z.history capacity).canUndo = !z.past.isEmpty := by
  cases z with
  | empty => rfl
  | around past current future =>
      cases past with
      | nil => rfl
      | cons older past =>
          have hplace : (0 : Int) < (older :: past).length := by
            rw [List.length_cons]
            omega
          exact decide_eq_true hplace

theorem canRedo_history (capacity : Int) (z : Zipper) :
    (z.history capacity).canRedo = !z.future.isEmpty := by
  cases z with
  | empty => rfl
  | around past current future =>
      have hlength := length_snapshots_around past current future
      simp only [history, History.canRedo, hlength, place, Zipper.future]
      cases future with
      | nil => simp only [List.length_nil, List.isEmpty_nil, Bool.not_true, decide_eq_false_iff_not]
               omega
      | cons newer future =>
          simp only [List.length_cons, List.isEmpty_cons, Bool.not_false, decide_eq_true_eq]
          omega

/-- Going back in the line is going back in the zipper. -/
theorem undo_history (capacity : Int) (z : Zipper) :
    (z.history capacity).undo = (z.undo.1.history capacity, z.undo.2) := by
  rw [History.undo, canUndo_history]
  cases z with
  | empty => rfl
  | around past current future =>
      cases past with
      | nil => rfl
      | cons older past =>
          have hline : (around (older :: past) current future).snapshots
              = (around past older (current :: future)).snapshots := by
            simp only [snapshots, List.reverse_cons, List.append_assoc, List.cons_append,
              List.nil_append]
          have hplace : (around (older :: past) current future).place - 1
              = (around past older (current :: future)).place := by
            simp only [place, List.length_cons]
            omega
          have hmoved : { (around (older :: past) current future).history capacity with
                index := (around (older :: past) current future).place - 1 }
              = (around past older (current :: future)).history capacity := by
            simp only [history, hline, hplace]
          simp only [Zipper.past, List.isEmpty_cons, Bool.not_false, if_true, undo]
          exact Prod.ext hmoved ((congrArg History.current? hmoved).trans (current?_history _ _))

/-- Going forward in the line is going forward in the zipper. -/
theorem redo_history (capacity : Int) (z : Zipper) :
    (z.history capacity).redo = (z.redo.1.history capacity, z.redo.2) := by
  rw [History.redo, canRedo_history]
  cases z with
  | empty => rfl
  | around past current future =>
      cases future with
      | nil => rfl
      | cons newer future =>
          have hline : (around past current (newer :: future)).snapshots
              = (around (current :: past) newer future).snapshots := by
            simp only [snapshots, List.reverse_cons, List.append_assoc, List.cons_append,
              List.nil_append]
          have hplace : (around past current (newer :: future)).place + 1
              = (around (current :: past) newer future).place := by
            simp only [place, List.length_cons]
            omega
          have hmoved : { (around past current (newer :: future)).history capacity with
                index := (around past current (newer :: future)).place + 1 }
              = (around (current :: past) newer future).history capacity := by
            simp only [history, hline, hplace]
          simp only [Zipper.future, List.isEmpty_cons, Bool.not_false, if_true, redo]
          exact Prod.ext hmoved ((congrArg History.current? hmoved).trans (current?_history _ _))

/-- The zipper has room for a current snapshot and its past, and is no longer than that. -/
def Fits (room : Nat) (z : Zipper) : Prop :=
  z.snapshots.length ≤ room + 1

/-- Recording in the line is recording in the zipper. The line is cut behind its place, so
    it was at most one snapshot too long in front. -/
theorem record_history {room : Nat} {z : Zipper} (hfits : z.Fits room) (text : String) :
    (z.history (room + 1)).record text = (z.record room text).history (room + 1) := by
  cases z with
  | empty =>
      have hsurplus : ¬ (0 : Int) < (1 : Nat) - ((room : Int) + 1) := by omega
      simp only [history, History.record, snapshots, place, record, List.take_nil,
        List.nil_append, List.length_singleton, if_neg hsurplus, List.reverse_nil]
      rfl
  | around past current future =>
      rw [Fits, length_snapshots_around] at hfits
      -- What is kept of the line is the past with the current snapshot.
      have hkept : (past.reverse ++ current :: future).take (past.length + 1)
          = (current :: past).reverse := by
        have hpast : past.reverse.length = past.length := List.length_reverse
        rw [← hpast, List.take_length_add_append, List.reverse_cons]
        rfl
      have hplace : ((past.length : Int) + 1).toNat = past.length + 1 := by omega
      have hlength : ((current :: past).reverse ++ [text]).length = past.length + 2 := by
        simp only [List.length_append, List.length_reverse, List.length_cons, List.length_nil]
      simp only [history, History.record, snapshots, place, record, hplace, hkept, hlength,
        List.reverse_take, List.length_take, List.length_cons]
      by_cases hfull : past.length + 1 ≤ room
      · have hsurplus : ¬ (0 : Int) < (past.length + 2 : Nat) - ((room : Int) + 1) := by omega
        have hdrop : past.length + 1 - room = 0 := by omega
        rw [if_neg hsurplus, hdrop, Nat.min_eq_right hfull]
        rfl
      · have hsurplus : (0 : Int) < (past.length + 2 : Nat) - ((room : Int) + 1) := by omega
        have hone : ((past.length + 2 : Nat) - ((room : Int) + 1)).toNat
            = past.length + 1 - room := by omega
        have hshort : past.length + 1 - room ≤ (current :: past).reverse.length := by
          rw [List.length_reverse, List.length_cons]
          omega
        rw [if_pos hsurplus, hone, List.drop_append_of_le_length hshort,
          Nat.min_eq_left (Nat.le_of_not_le hfull)]
        refine congrArg (History.mk _ _) ?_
        omega

/-- A command does to the line what it does to the zipper. -/
theorem obey_history {room : Nat} {z : Zipper} (hfits : z.Fits room) (c : Command) :
    (z.history (room + 1)).obey c
      = ((z.obey room c).1.history (room + 1), (z.obey room c).2) := by
  cases c with
  | record text => exact congrArg (·, none) (record_history hfits text)
  | undo => exact undo_history _ z
  | redo => exact redo_history _ z
  | clear => rfl

/-- No command makes the zipper too long. -/
theorem Fits.obey {room : Nat} {z : Zipper} (hfits : z.Fits room) (c : Command) :
    (z.obey room c).1.Fits room := by
  cases z with
  | empty =>
      cases c with
      | record text => exact Nat.succ_le_succ (Nat.zero_le room)
      | undo => exact hfits
      | redo => exact hfits
      | clear => exact hfits
  | around past current future =>
      have hlength := length_snapshots_around past current future
      cases c with
      | record text =>
          simp only [Zipper.obey, record, Fits, length_snapshots_around, List.length_take,
            List.length_nil]
          omega
      | undo =>
          cases past with
          | nil => exact hfits
          | cons older past =>
              simp only [Fits, Zipper.obey, undo, length_snapshots_around,
                List.length_cons] at hfits ⊢
              omega
      | redo =>
          cases future with
          | nil => exact hfits
          | cons newer future =>
              simp only [Fits, Zipper.obey, redo, length_snapshots_around,
                List.length_cons] at hfits ⊢
              omega
      | clear => exact Nat.zero_le _

/-- So do some commands, one after the other. -/
theorem run_history {room : Nat} (commands : List Command) : ∀ {z : Zipper}, z.Fits room →
    (z.history (room + 1)).run commands
        = ((z.run room commands).1.history (room + 1), (z.run room commands).2) ∧
      (z.run room commands).1.Fits room := by
  induction commands with
  | nil => exact fun hfits => ⟨rfl, hfits⟩
  | cons c commands ih =>
      intro z hfits
      rcases ih (hfits.obey c) with ⟨hrun, hfits'⟩
      refine ⟨?_, hfits'⟩
      simp only [History.run, run, obey_history hfits, hrun]

end Zipper

namespace History

/-- A history is a zipper whose past has room for one snapshot less than its capacity. Through
    every run of commands it gives the same answers, and behind it the same snapshot is
    current and the same ways are open. Its line is that of the zipper, so the place never
    leaves the line, and the line is never longer than the capacity. -/
theorem run_zipper (capacity : Int) (hcapacity : 1 ≤ capacity) (commands : List Command) :
    ∃ fresh, make capacity = .ok fresh ∧
      let (h, answers) := fresh.run commands
      let (z, expected) := Zipper.empty.run (capacity - 1).toNat commands
      answers = expected ∧
      h.current? = z.current? ∧ h.canUndo = !z.past.isEmpty ∧ h.canRedo = !z.future.isEmpty ∧
      h.entries = z.snapshots ∧
      -1 ≤ h.index ∧ h.index < h.entries.length ∧ h.entries.length ≤ capacity ∧
      (h.index = -1 ↔ h.entries = []) ∧
      (h.entries ≠ [] → h.entries.length = z.past.length + 1 + z.future.length) := by
  have hroom : ((capacity - 1).toNat : Int) + 1 = capacity := by omega
  have hfresh : make capacity = .ok (Zipper.empty.history capacity) := by
    rw [make, if_neg (by omega)]
    rfl
  have hempty : Zipper.empty.Fits (capacity - 1).toNat := Nat.zero_le _
  refine ⟨_, hfresh, ?_⟩
  -- After the commands the history is a zipper laid out, so its fields are read off that zipper.
  rcases Zipper.run_history commands hempty with ⟨hrun, hfits⟩
  rw [hroom] at hrun
  generalize Zipper.empty.run (capacity - 1).toNat commands = ran at hrun hfits
  obtain ⟨z, expected⟩ := ran
  rw [hrun]
  have hbounds := z.place_bounds
  refine ⟨rfl, z.current?_history _, z.canUndo_history _, z.canRedo_history _, rfl, hbounds.1,
    hbounds.2, ?_, ?_, ?_⟩
  · simp only [Zipper.Fits] at hfits
    simp only [Zipper.history]
    omega
  · exact z.place_eq_neg_one_iff
  · exact Zipper.length_snapshots

/-- A user goes back, leaves a branch behind, and goes on until the oldest snapshot has to
    give way. -/
def sketch : List Command :=
  [.record "a", .record "b", .undo, .record "c", .record "d", .undo, .undo, .redo, .redo]

theorem sketch_zipper :
    1 ≤ (2 : Int) ∧
      Zipper.empty.run 1 sketch
        = (.around ["c"] "d" [],
          [none, none, some "a", none, none, some "c", none, some "d", none]) ∧
      ∃ fresh, make 2 = .ok fresh ∧
        (fresh.run sketch).2 = (Zipper.empty.run 1 sketch).2 ∧
        (fresh.run sketch).1.entries = ["c", "d"] ∧
        (fresh.run sketch).1.entries.length ≤ (2 : Int) := by
  rcases run_zipper 2 (by decide) sketch with
    ⟨fresh, hfresh, hanswers, -, -, -, hentries, -, -, hlength, -⟩
  exact ⟨by decide, by decide, fresh, hfresh, hanswers, hentries, hlength⟩

end History

end WidgetSync
