import WidgetSync.Settings.Load

/-!
# Layers of Settings

What each setting in force comes from.

There are three layers. At the bottom lie the usual settings, on them what the file
says, and on top what the environment says. The layers do not depend on one another,
so a setting can be told from what each of them says about it.

A file says something about a setting only if it can be heard so far. Its entries are
applied in a fixed order, and the first that cannot be applied is the end of it: the
file is then reported as passed over, but what was heard before stays in force. So a
file that is passed over still counts, unless all it says up to there is what is usual or
what the environment says otherwise. `halfFile_heeded` is such a file.

One value is not passed over, but ends the program: an infinite double where an integer
is needed. Then there are no settings at all, as is the case when there is no home
folder to look for the file in.

## Main definitions

* `Settings.Key`: The settings, by name.
* `Settings.Key.said`, `Settings.heard`: What data say about a setting, and how far
  they are heard.
* `Settings.spoiled?`: The first setting for which data are of no use.
* `Settings.heeded`, `Settings.Key.ofEnvironment`: What file and environment say in force.
* `Settings.Key.Endless`: An infinite double stands where an integer is needed.

## Theorems

* `Settings.applyData_spec`: What is applied of the data of a file.
* `Settings.applyVariables_value`: What the environment says goes over the rest.
* `Settings.load_answers_iff`: When there are settings.
* `Settings.ignored_file_layers`: What they are when the file is reported as passed over.
-/

namespace WidgetSync

namespace Settings

/-- The settings, by name. -/
inductive Key where
  | debounceMs
  | capacity
  | width
  | height
  | title
  | level
deriving DecidableEq, Repr

/-- The value of a setting. -/
def value (s : Settings) : Key → Value
  | .debounceMs => .int s.debounceMs
  | .capacity => .int s.capacity
  | .width => .int s.width
  | .height => .int s.height
  | .title => .text s.title
  | .level => .text s.level

theorem eq_iff_value {s s' : Settings} : s = s' ↔ ∀ k, s.value k = s'.value k := by
  refine ⟨fun h k => congrArg (value · k) h, fun h => ?_⟩
  rcases s with ⟨debounceMs, capacity, width, height, title, level⟩
  rcases s' with ⟨debounceMs', capacity', width', height', title', level'⟩
  rw [Settings.mk.injEq]
  exact ⟨Value.int.inj (h .debounceMs), Value.int.inj (h .capacity), Value.int.inj (h .width),
    Value.int.inj (h .height), Value.text.inj (h .title), Value.text.inj (h .level)⟩

namespace Key

/-- All settings, in the order in which a file is applied. -/
def all : List Key :=
  [.debounceMs, .capacity, .width, .height, .title, .level]

/-- The place of a setting in that order. -/
def place : Key → Fin 6
  | .debounceMs => 0
  | .capacity => 1
  | .width => 2
  | .height => 3
  | .title => 4
  | .level => 5

/-- The entry of a file for a setting. -/
def entry (k : Key) : Entry :=
  fileEntries.get k.place

/-- The setting is an integer. -/
def isInteger : Key → Bool
  | .title => false
  | .level => false
  | _ => true

/-- What a setting becomes by a value in a file. -/
def ofFile (k : Key) (v : Value) : Except Fault Value :=
  match k with
  | .title => (textOf v).map .text
  | .level => (textOf v).map fun t => .text (capitals t)
  | _ => v.integer.map .int

/-- The value that data hold for a setting, as it stands there. -/
def found (k : Key) (data : Value) : Except Fault (Option Value) := do
  match ← lookUp data k.entry.area with
  | none => return none
  | some area => lookUp area k.entry.name

/-- What data say about a setting, if they say anything, or why they are of no use. -/
def said (k : Key) (data : Value) : Except Fault (Option Value) := do
  match ← k.found data with
  | none => return none
  | some v => return some (← k.ofFile v)

/-- What data say about a setting, if they say anything of use. -/
def given (k : Key) (data : Value) : Option Value :=
  match k.said data with
  | .ok given => given
  | .error _ => none

/-- The variable for a setting. -/
def variableName : Key → String
  | .debounceMs => "QMLSYNC_DEBOUNCE_MS"
  | .capacity => "QMLSYNC_HISTORY_CAPACITY"
  | .width => "QMLSYNC_WINDOW_WIDTH"
  | .height => "QMLSYNC_WINDOW_HEIGHT"
  | .title => "QMLSYNC_WINDOW_TITLE"
  | .level => "QMLSYNC_LOG_LEVEL"

/-- What the environment says about a setting. -/
def ofEnvironment (k : Key) (e : Environment) : Option Value :=
  (e.get? k.variableName).bind fun t =>
    if k.isInteger then (Decimal.readInteger? t.toList).map .int else some (.text t)

/-- A setting can have the value. -/
def Admits (k : Key) : Value → Prop
  | .int _ => k.isInteger = true
  | .text _ => k.isInteger = false
  | _ => False

/-- The settings with a value for one of them. -/
def put (k : Key) (v : Value) (s : Settings) : Settings :=
  match k, v with
  | .debounceMs, .int n => { s with debounceMs := n }
  | .capacity, .int n => { s with capacity := n }
  | .width, .int n => { s with width := n }
  | .height, .int n => { s with height := n }
  | .title, .text t => { s with title := t }
  | .level, .text t => { s with level := t }
  | _, _ => s

/-- The settings with what is said about one of them. -/
def lay (k : Key) (given : Option Value) (s : Settings) : Settings :=
  (given.map fun v => k.put v s).getD s

/-- The settings with what is said about several of them. -/
def layAll (given : Key → Option Value) (ks : List Key) (s : Settings) : Settings :=
  ks.foldl (fun s k => k.lay (given k) s) s

theorem value_put {k : Key} {v : Value} (h : k.Admits v) (s : Settings) (j : Key) :
    (k.put v s).value j = if j = k then v else s.value j := by
  cases v with
  | int n =>
      cases k with
      | title => exact nomatch h
      | level => exact nomatch h
      | _ => cases j <;> rfl
  | text t =>
      cases k with
      | title => cases j <;> rfl
      | level => cases j <;> rfl
      | _ => exact nomatch h
  | _ => exact h.elim

theorem value_lay {k : Key} {given : Option Value} (h : ∀ v, given = some v → k.Admits v)
    (s : Settings) (j : Key) :
    (k.lay given s).value j = if j = k then given.getD (s.value k) else s.value j := by
  cases given with
  | none =>
      split
      · rename_i hj
        rw [hj]
        rfl
      · rfl
  | some v => exact value_put (h v rfl) s j

/-- What is said about a setting goes over what it was, and nothing else does. -/
theorem value_layAll {given : Key → Option Value} (h : ∀ k v, given k = some v → k.Admits v)
    {ks : List Key} (hks : ks.Nodup) (s : Settings) (j : Key) :
    (layAll given ks s).value j = if j ∈ ks then (given j).getD (s.value j) else s.value j := by
  induction ks generalizing s with
  | nil => rfl
  | cons k ks ih =>
      rw [List.nodup_cons] at hks
      rw [layAll, List.foldl_cons, ← layAll, ih hks.2, value_lay (h k)]
      by_cases hj : j = k
      · -- Nothing further on covers it: it stands there once.
        subst hj
        rw [if_neg hks.1, if_pos rfl, if_pos List.mem_cons_self]
      · simp only [List.mem_cons, hj, false_or, if_false]

end Key

/-! ### The file -/

theorem fileEntries_eq : fileEntries = Key.all.map Key.entry :=
  rfl

namespace Key

variable {k : Key} {data : Value}

/-- What a value in a file gives can be had by the setting. -/
theorem ofFile_admits {v given : Value} (h : k.ofFile v = .ok given) : k.Admits given := by
  cases k with
  | title =>
      rcases ok_of_map h with ⟨t, -, rfl⟩
      rfl
  | level =>
      rcases ok_of_map h with ⟨t, -, rfl⟩
      rfl
  | _ =>
      rcases ok_of_map h with ⟨n, -, rfl⟩
      rfl

theorem said_admits {given : Option Value} (h : k.said data = .ok given) :
    ∀ v, given = some v → k.Admits v := by
  rintro v rfl
  unfold said at h
  rcases ok_of_bind h with ⟨found, -, h⟩
  cases found with
  | none => exact nomatch Except.ok.inj h
  | some w =>
      rcases ok_of_bind h with ⟨given, hgiven, h⟩
      exact Option.some.inj (Except.ok.inj h) ▸ ofFile_admits hgiven

/-- The entry of a setting puts what a value gives. -/
theorem entry_put (k : Key) (v : Value) (s : Settings) :
    k.entry.put v s = (k.ofFile v).map (k.put · s) := by
  have hmap : ∀ {α : Type} (x : Except Fault α) (give : α → Value) (change : α → Settings),
      (∀ a, change a = k.put (give a) s) → x.map change = (x.map give).map (k.put · s) := by
    intro α x give change hchange
    cases x with
    | error fault => rfl
    | ok a => exact congrArg Except.ok (hchange a)
  cases k with
  | debounceMs => exact hmap v.integer .int (fun n => { s with debounceMs := n }) fun _ => rfl
  | capacity => exact hmap v.integer .int (fun n => { s with capacity := n }) fun _ => rfl
  | width => exact hmap v.integer .int (fun n => { s with width := n }) fun _ => rfl
  | height => exact hmap v.integer .int (fun n => { s with height := n }) fun _ => rfl
  | title => exact hmap (textOf v) .text (fun t => { s with title := t }) fun _ => rfl
  | level =>
      exact hmap (textOf v) (fun t => .text (capitals t))
        (fun t => { s with level := capitals t }) fun _ => rfl

/-- The entry of a setting lays what data say about it over the settings. -/
theorem applyEntry_eq (k : Key) (data : Value) (s : Settings) :
    applyEntry data s k.entry = (k.said data).map (k.lay · s) := by
  rw [said, found, applyEntry]
  cases lookUp data k.entry.area with
  | error fault => rfl
  | ok area =>
      cases area with
      | none => rfl
      | some area =>
          simp only [bind, Except.bind]
          cases lookUp area k.entry.name with
          | error fault => rfl
          | ok found =>
              cases found with
              | none => rfl
              | some v =>
                  simp only [entry_put]
                  cases k.ofFile v with
                  | error fault => rfl
                  | ok given => rfl

theorem given_admits {v : Value} (h : k.given data = some v) : k.Admits v := by
  rw [given] at h
  split at h
  · rename_i hsaid
    exact said_admits hsaid v h
  · exact nomatch h

end Key

/-- The settings that are heard of data: those before the first that is of no use. -/
def heard (data : Value) : List Key :=
  Key.all.takeWhile fun k => (k.said data).isOk

/-- The first setting for which data are of no use. -/
def spoiled? (data : Value) : Option Key :=
  Key.all.find? fun k => !(k.said data).isOk

/-- Entries are applied up to the first that is of no use, which says why the others are
    not. -/
theorem applyEntries_eq (data : Value) (ks : List Key) (s : Settings) :
    (applyEntries data s (ks.map Key.entry)).1
        = Key.layAll (·.given data) (ks.takeWhile fun k => (k.said data).isOk) s ∧
      ∀ fault, (applyEntries data s (ks.map Key.entry)).2 = some fault
        ↔ ∃ k, ks.find? (fun k => !(k.said data).isOk) = some k ∧ k.said data = .error fault := by
  induction ks generalizing s with
  | nil => exact ⟨rfl, fun fault => ⟨nofun, nofun⟩⟩
  | cons k ks ih =>
      rw [List.map_cons, applyEntries, Key.applyEntry_eq, List.takeWhile_cons, List.find?_cons]
      cases hsaid : k.said data with
      | error fault =>
          -- The rest is neither applied nor heard.
          refine ⟨rfl, fun fault' => ?_⟩
          simp only [Except.map, Except.isOk, Except.toBool, Option.some.injEq, Bool.not_false,
            exists_eq_left', hsaid, Except.error.injEq]
      | ok given =>
          have hgiven : k.given data = given := by rw [Key.given, hsaid]
          rcases ih (k.lay given s) with ⟨hvalues, hfault⟩
          refine ⟨hvalues.trans ?_, hfault⟩
          rw [Except.isOk, Except.toBool, if_pos rfl, Key.layAll, Key.layAll, List.foldl_cons,
            hgiven]

theorem Key.all_nodup : Key.all.Nodup := by
  decide

theorem Key.mem_all (k : Key) : k ∈ Key.all := by
  cases k <;> decide

/-- What data say about a setting, if the setting is heard of them. -/
def heeded (data : Value) (k : Key) : Option Value :=
  if k ∈ heard data then k.given data else none

/-- What is heard of the data of a file goes over the settings. If not all is, the fault is the
    one of the first setting for which the data are of no use. -/
theorem applyData_spec (s : Settings) (data : Value) :
    (∀ j, (s.applyData data).1.value j = (heeded data j).getD (s.value j)) ∧
      ∀ fault, (s.applyData data).2 = some fault
        ↔ ∃ k, spoiled? data = some k ∧ k.said data = .error fault := by
  rw [applyData, fileEntries_eq]
  rcases applyEntries_eq data Key.all s with ⟨hvalues, hfault⟩
  refine ⟨fun j => ?_, hfault⟩
  rw [hvalues, Key.value_layAll (fun _ _ => Key.given_admits)
    (Key.all_nodup.sublist (List.takeWhile_sublist _)), heeded, heard]
  split
  · rfl
  · rfl

/-- The data of a file are of use for everything or there is a first setting for which they
    are not. -/
theorem said_of_spoiled {data : Value} {k : Key} (h : spoiled? data = some k) :
    ∃ fault, k.said data = .error fault := by
  have hspoiled := List.find?_some h
  cases hsaid : k.said data with
  | error fault => exact ⟨fault, rfl⟩
  | ok given =>
      rw [hsaid] at hspoiled
      exact nomatch hspoiled

/-! ### The environment -/

/-- What the environment says can be had by the setting. -/
theorem Key.ofEnvironment_admits {k : Key} {e : Environment} {v : Value}
    (h : k.ofEnvironment e = some v) : k.Admits v := by
  rcases Option.bind_eq_some_iff.mp h with ⟨t, -, h⟩
  split at h
  · rename_i hinteger
    rcases Option.map_eq_some_iff.mp h with ⟨n, -, rfl⟩
    exact hinteger
  · rename_i hinteger
    rw [← Option.some.inj h]
    exact Bool.eq_false_iff.mpr hinteger

theorem applyInteger_eq (e : Environment) {k : Key} (hk : k.isInteger = true)
    {put : Int → Settings → Settings} (hput : ∀ n s, put n s = k.put (.int n) s) (s : Settings) :
    applyInteger e k.variableName put s = k.lay (k.ofEnvironment e) s := by
  rw [applyInteger, Key.ofEnvironment, hk]
  cases e.get? k.variableName with
  | none => rfl
  | some t =>
      simp only [Option.bind_some, if_true]
      cases Decimal.readInteger? t.toList with
      | none => rfl
      | some n => exact hput n s

theorem applyText_eq (e : Environment) {k : Key} (hk : k.isInteger = false)
    {put : String → Settings → Settings} (hput : ∀ t s, put t s = k.put (.text t) s)
    (s : Settings) : applyText e k.variableName put s = k.lay (k.ofEnvironment e) s := by
  rw [applyText, Key.ofEnvironment, hk]
  cases e.get? k.variableName with
  | none => rfl
  | some t => exact hput t s

theorem applyVariables_eq (e : Environment) (s : Settings) :
    s.applyVariables e = Key.layAll (·.ofEnvironment e) Key.all s := by
  have happlied : s.applyVariables e
      = applyText e (Key.variableName .level) (fun t s => { s with level := t })
        (applyText e (Key.variableName .title) (fun t s => { s with title := t })
          (applyInteger e (Key.variableName .height) (fun n s => { s with height := n })
            (applyInteger e (Key.variableName .width) (fun n s => { s with width := n })
              (applyInteger e (Key.variableName .capacity) (fun n s => { s with capacity := n })
                (applyInteger e (Key.variableName .debounceMs)
                  (fun n s => { s with debounceMs := n }) s))))) := rfl
  rw [happlied, applyText_eq e (k := .level) rfl, applyText_eq e (k := .title) rfl,
    applyInteger_eq e (k := .height) rfl, applyInteger_eq e (k := .width) rfl,
    applyInteger_eq e (k := .capacity) rfl, applyInteger_eq e (k := .debounceMs) rfl]
  · rfl
  all_goals exact fun _ _ => rfl

/-- What the environment says about a setting goes over what it was. -/
theorem applyVariables_value (e : Environment) (s : Settings) (j : Key) :
    (s.applyVariables e).value j = (j.ofEnvironment e).getD (s.value j) := by
  rw [applyVariables_eq, Key.value_layAll (fun _ _ => Key.ofEnvironment_admits) Key.all_nodup,
    if_pos j.mem_all]

/-! ### What ends the program -/

/-- An infinite double stands where an integer is needed. -/
def Key.Endless (k : Key) (data : Value) : Prop :=
  k.isInteger = true ∧
    ∃ x : Float, k.found data = .ok (some (.float x)) ∧ x.isNaN = false ∧ x.isInf = true

theorem lookUp_ne_overflow {data : Value} {name : String} :
    lookUp data name ≠ .error .overflow := by
  intro h
  rcases bind_error_iff.mp h with h | ⟨mentioned, -, h⟩
  · cases data <;> exact nomatch h
  · cases mentioned with
    | false => exact nomatch h
    | true =>
        rcases bind_error_iff.mp h with h | ⟨v, -, h⟩
        · unfold Value.member at h
          split at h
          · split at h
            · exact nomatch h
            · exact nomatch h
          · exact nomatch h
        · exact nomatch h

theorem Key.found_ne_overflow {k : Key} {data : Value} : k.found data ≠ .error .overflow := by
  intro h
  rcases bind_error_iff.mp h with h | ⟨area, -, h⟩
  · exact lookUp_ne_overflow h
  · cases area with
    | none => exact nomatch h
    | some area => exact lookUp_ne_overflow h

/-- Only an infinite double is too large to become an integer. -/
theorem integer_overflow_iff {v : Value} :
    v.integer = .error .overflow
      ↔ ∃ x : Float, v = .float x ∧ x.isNaN = false ∧ x.isInf = true := by
  have hread : ∀ s, Value.integer.readText s ≠ .error .overflow := by
    intro s h
    unfold Value.integer.readText at h
    split at h
    · exact nomatch h
    · exact nomatch h
  cases v with
  | float x =>
      simp only [Value.integer, Value.float.injEq, exists_eq_left']
      cases x.isNaN with
      | true => exact iff_of_false nofun fun h => nomatch h.1
      | false =>
          cases x.isInf with
          | true => exact iff_of_true rfl ⟨rfl, rfl⟩
          | false => exact iff_of_false nofun fun h => nomatch h.2
  | text s => exact iff_of_false (hread s) nofun
  | raw s => exact iff_of_false (hread s) nofun
  | _ => exact iff_of_false nofun nofun

theorem Key.ofFile_overflow_iff {k : Key} {v : Value} :
    k.ofFile v = .error .overflow
      ↔ k.isInteger = true ∧ ∃ x : Float, v = .float x ∧ x.isNaN = false ∧ x.isInf = true := by
  have htext : textOf v ≠ .error .overflow := by
    unfold textOf
    split
    · exact nofun
    · exact nofun
  rw [← integer_overflow_iff]
  cases k with
  | title => exact iff_of_false (fun h => htext (map_error_iff.mp h)) fun h => nomatch h.1
  | level => exact iff_of_false (fun h => htext (map_error_iff.mp h)) fun h => nomatch h.1
  | _ => exact map_error_iff.trans (and_iff_right rfl).symm

/-- Data give a number that is too large just if an infinite double stands there. -/
theorem Key.said_overflow_iff {k : Key} {data : Value} :
    k.said data = .error .overflow ↔ k.Endless data := by
  constructor
  · intro h
    rcases bind_error_iff.mp h with h | ⟨found, hfound, h⟩
    · exact absurd h found_ne_overflow
    · cases found with
      | none => exact nomatch h
      | some v =>
          rcases bind_error_iff.mp h with h | ⟨given, -, h⟩
          · rcases ofFile_overflow_iff.mp h with ⟨hinteger, x, rfl, hx⟩
            exact ⟨hinteger, x, hfound, hx⟩
          · exact nomatch h
  · rintro ⟨hinteger, x, hfound, hx⟩
    refine bind_error_iff.mpr (.inr ⟨some (.float x), hfound, bind_error_iff.mpr (.inl ?_)⟩)
    exact ofFile_overflow_iff.mpr ⟨hinteger, x, rfl, hx⟩

end Settings

namespace Environment

end Environment

namespace Settings

variable {e : Environment} {files : String → Option (List UInt8)}

/-- What a file says in force, if it can be read. -/
def fileHeeded (bytes : List UInt8) (k : Key) : Option Value :=
  (fileData? bytes).bind fun data => heeded (.record data) k

/-- The file can be read, and all it says is of use. -/
def Heard (bytes : List UInt8) : Prop :=
  ∃ data, fileData? bytes = some data ∧ spoiled? (.record data) = none

/-- An infinite double is the first thing in a file that is of no use. -/
def EndlessFile (bytes : List UInt8) : Prop :=
  ∃ data k, fileData? bytes = some data ∧ spoiled? (.record data) = some k ∧
    k.Endless (.record data)

/-- A file is applied as far as it is heard, and if that is not all, this is reported. An infinite
    double is not forgiven. -/
theorem applyFile_cases (s : Settings) (path : String) (bytes : List UInt8) :
    (EndlessFile bytes ∧ applyFile s path bytes = .error .overflow) ∨
      ¬ EndlessFile bytes ∧ ∃ after notices, applyFile s path bytes = .ok (after, notices) ∧
        (∀ k, after.value k = (fileHeeded bytes k).getD (s.value k)) ∧
        (Heard bytes ∧ notices = [] ∨ ¬ Heard bytes ∧ notices = [unreadable path]) := by
  cases hdata : fileData? bytes with
  | none =>
      -- What cannot be read says nothing, and nothing endless.
      have hlost : ∀ data, fileData? bytes ≠ some data := fun data h => nomatch hdata.symm.trans h
      refine .inr ⟨fun ⟨data, k, h, _⟩ => hlost data h, s, [unreadable path], ?_, fun k => ?_,
        .inr ⟨fun ⟨data, h, _⟩ => hlost data h, rfl⟩⟩
      · rw [applyFile, hdata]
      · rw [fileHeeded, hdata]
        rfl
  | some data =>
      have hsame : ∀ {data'}, fileData? bytes = some data' → data' = data := fun h =>
        (Option.some.inj (hdata.symm.trans h)).symm
      rcases applyData_spec s (.record data) with ⟨hvalues, hfault⟩
      have hheeded : ∀ k, fileHeeded bytes k = heeded (.record data) k := fun k => by
        rw [fileHeeded, hdata, Option.bind_some]
      simp only [applyFile, hdata, hheeded]
      generalize s.applyData (.record data) = applied at hvalues hfault ⊢
      rcases applied with ⟨after, reason⟩
      cases reason with
      | none =>
          have hspoiled : spoiled? (.record data) = none := by
            refine Option.eq_none_iff_forall_ne_some.mpr fun k hk => ?_
            rcases said_of_spoiled hk with ⟨fault, hsaid⟩
            exact nomatch (hfault fault).mpr ⟨k, hk, hsaid⟩
          refine .inr ⟨fun ⟨data', k, h, hk, _⟩ => ?_, after, [], rfl, hvalues,
            .inl ⟨⟨data, hdata, hspoiled⟩, rfl⟩⟩
          rw [hsame h, hspoiled] at hk
          exact nomatch hk
      | some fault =>
          rcases (hfault fault).mp rfl with ⟨k, hspoiled, hsaid⟩
          have hunheard : ¬ Heard bytes := by
            rintro ⟨data', h, hk⟩
            rw [hsame h, hspoiled] at hk
            exact nomatch hk
          have hforgiven : fault ≠ .overflow → ¬ EndlessFile bytes := by
            rintro hne ⟨data', k', h, hk', hendless⟩
            rw [hsame h, hspoiled] at hk'
            rw [hsame h, ← Option.some.inj hk', ← Key.said_overflow_iff, hsaid] at hendless
            exact hne (Except.error.inj hendless)
          -- Of all faults, only this one is not forgiven.
          cases fault with
          | overflow => exact .inl ⟨⟨data, k, hdata, hspoiled, Key.said_overflow_iff.mp hsaid⟩, rfl⟩
          | _ => exact .inr ⟨hforgiven nofun, after, _, rfl, hvalues, .inr ⟨hunheard, rfl⟩⟩

section Load

variable {path : FilePath} (hpath : e.settingsPath = .ok path)
include hpath

/-- With no file, the settings are the usual ones and what the environment says. -/
theorem load_missing (hfile : files path.text = none) :
    load e files = .ok (applyVariables e {}, []) := by
  rw [load, hpath]
  simp only [bind, Except.bind, hfile]
  rfl

theorem load_file {bytes : List UInt8} (hfile : files path.text = some bytes) :
    load e files
      = (applyFile {} path.text bytes).map fun loaded => (loaded.1.applyVariables e, loaded.2) := by
  rw [load, hpath]
  simp only [bind, Except.bind, hfile]
  cases applyFile {} path.text bytes with
  | error fault => rfl
  | ok loaded => rfl

end Load

/-- An environment that names the folder of the file. -/
def folderNamed : Environment where
  assigned := [("XDG_CONFIG_HOME", "xdg")]

/-- Files that hold a text, wherever they lie. -/
def holding (text : String) (_ : String) : Option (List UInt8) :=
  some text.toUTF8.toList

/-- The settings when the file is reported as passed over: what the environment says, over
    what the file says down to where it is of no use, over what is usual. They are what they
    would be without the file just if nothing of what it says there is new. -/
theorem ignored_file_layers {s : Settings} {notices : List Notice}
    (hload : load e files = .ok (s, notices)) (hignored : notices ≠ []) :
    ∃ path bytes, e.settingsPath = .ok path ∧ files path.text = some bytes ∧ ¬ Heard bytes ∧
      notices = [unreadable path.text] ∧
      (∀ k, s.value k
        = (k.ofEnvironment e).getD ((fileHeeded bytes k).getD (value {} k))) ∧
      ∃ bare, load e (fun _ => none) = .ok (bare, []) ∧
        (s = bare ↔ ∀ k v, k.ofEnvironment e = none → fileHeeded bytes k = some v →
          v = value {} k) := by
  cases hpath : e.settingsPath with
  | error fault =>
      rw [load, hpath] at hload
      exact nomatch hload
  | ok path =>
      cases hfile : files path.text with
      | none =>
          rw [load_missing hpath hfile] at hload
          exact absurd (Prod.mk.inj (Except.ok.inj hload)).2.symm hignored
      | some bytes =>
          rw [load_file hpath hfile] at hload
          rcases ok_of_map hload with ⟨⟨after, reported⟩, happlied, hpair⟩
          rcases Prod.mk.inj hpair with ⟨rfl, rfl⟩
          rcases applyFile_cases {} path.text bytes with
            ⟨-, hfailed⟩ | ⟨-, after', notices', happlied', hvalues, hreported⟩
          · exact nomatch hfailed.symm.trans happlied
          · rcases Prod.mk.inj (Except.ok.inj (happlied'.symm.trans happlied)) with ⟨rfl, rfl⟩
            rcases hreported with ⟨-, hnone⟩ | ⟨hunheard, hreported⟩
            · exact absurd hnone hignored
            · have hlayers : ∀ k, (after'.applyVariables e).value k
                  = (k.ofEnvironment e).getD ((fileHeeded bytes k).getD (value {} k)) := fun k => by
                rw [applyVariables_value, hvalues]
              refine ⟨path, bytes, rfl, hfile, hunheard, hreported, hlayers, _,
                load_missing hpath rfl, ?_⟩
              -- They differ in the middle layer, which shows where the environment is silent.
              rw [eq_iff_value]
              refine forall_congr' fun k => ?_
              rw [hlayers, applyVariables_value]
              cases k.ofEnvironment e with
              | some v => exact iff_of_true rfl nofun
              | none =>
                  cases fileHeeded bytes k with
                  | none => exact iff_of_true rfl nofun
                  | some v => simp only [Option.getD_none, Option.getD_some, forall_const,
                      Option.some.injEq, forall_eq']

/-- A file that is of use for the first setting and of none for the third. -/
def halfFile : String :=
  "[sync]\ndebounce_ms = 300\n[window]\nwidth = \"wide\"\n"

/-- The file is passed over, and the delay is the one that it gives. -/
theorem halfFile_loaded :
    load folderNamed (holding halfFile)
      = .ok ({ debounceMs := 300 }, [unreadable "xdg/qmlsync/config.toml"]) :=
  ok_of_toOption (by decide +kernel)

theorem halfFile_layers :
    load folderNamed (holding halfFile)
        = .ok ({ debounceMs := 300 }, [unreadable "xdg/qmlsync/config.toml"]) ∧
      [unreadable "xdg/qmlsync/config.toml"] ≠ [] ∧
      ∃ path bytes, folderNamed.settingsPath = .ok path ∧ holding halfFile path.text = some bytes ∧
        ¬ Heard bytes ∧
        ∀ k, value { debounceMs := 300 } k
          = (k.ofEnvironment folderNamed).getD ((fileHeeded bytes k).getD (value {} k)) := by
  rcases ignored_file_layers halfFile_loaded (List.cons_ne_nil _ _) with
    ⟨path, bytes, hpath, hfile, hunheard, -, hlayers, -⟩
  exact ⟨halfFile_loaded, List.cons_ne_nil _ _, path, bytes, hpath, hfile, hunheard, hlayers⟩

/-- A file that is passed over may have an effect. -/
theorem halfFile_heeded :
    ∃ s notices bare, load folderNamed (holding halfFile) = .ok (s, notices) ∧ notices ≠ [] ∧
      load folderNamed (fun _ => none) = .ok (bare, []) ∧ s ≠ bare := by
  have hbare : load folderNamed (fun _ => none) = .ok ({}, []) := ok_of_toOption (by decide +kernel)
  exact ⟨_, _, _, halfFile_loaded, List.cons_ne_nil _ _, hbare, by decide⟩

end Settings

end WidgetSync
