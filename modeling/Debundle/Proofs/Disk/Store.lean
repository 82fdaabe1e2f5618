import Debundle.Disk.Store
import Debundle.Proofs.Attempt
import Debundle.Proofs.Entries
import Debundle.Proofs.Outcome
import Mathlib

/-!
# What operations on a store keep

An operation changes at most one file that was there before.  Directories are only added,
and content is staged at a place where there was nothing, so an operation that fails keeps
everything, and one that replaces a file keeps everything else.  In particular a
path that has led to a place leads there ever after.
-/

namespace Debundle

/-- The number that hexadecimal digits stand for. -/
def hexValue (digits : List Char) : Nat :=
  digits.foldl (fun value digit =>
    16 * value + (if digit.isDigit then digit.toNat - 48 else digit.toNat - 87)) 0

theorem hexValue_toDigits (value : Nat) : hexValue (Nat.toDigits 16 value) = value := by
  have hdigit : ∀ digit < 16, hexValue [Nat.digitChar digit] = digit := by decide
  induction value using Nat.strong_induction_on with
  | _ value ih =>
    rw [Nat.toDigits_eq_if (by decide)]
    split
    · next hsmall => exact hdigit value hsmall
    · next hlarge =>
        have hlast := hdigit (value % 16) (Nat.mod_lt _ (by decide))
        have hfront := ih (value / 16) (by omega)
        simp only [hexValue, List.foldl_append, List.foldl_cons, List.foldl_nil] at hlast hfront ⊢
        rw [hfront]
        omega

theorem hexValue_hexDigits (width value : Nat) : hexValue (hexDigits width value) = value := by
  have hzeros : ∀ count, (List.replicate count '0').foldl (fun value digit =>
      16 * value + (if digit.isDigit then digit.toNat - 48 else digit.toNat - 87)) 0 = 0 := by
    intro count
    induction count with
    | zero => rfl
    | succ count ih => exact ih
  rw [hexDigits, hexValue, List.foldl_append, hzeros]
  exact hexValue_toDigits value

theorem stagingName_injective (name : String) : Function.Injective (Disk.stagingName name) := by
  intro number other hnames
  have hdigits := (String.append_right_inj _).1 ((String.append_left_inj _).1 hnames)
  have hvalues := congrArg hexValue (String.ofList_injective hdigits)
  rwa [hexValue_hexDigits, hexValue_hexDigits] at hvalues

deriving instance DecidableEq for Entry

namespace Store

variable {store before between after : Store} {location place : Location} {entry : Entry}

theorem entry?_nil (store : Store) : store.entry? [] = some .directory :=
  if_pos rfl

theorem entry?_eq_lookup (hlocation : location ≠ []) :
    store.entry? location = store.entries.lookup location :=
  if_neg hlocation

theorem ne_nil_of_not_directory (hplace : store.entry? place ≠ some .directory) : place ≠ [] := by
  rintro rfl
  exact hplace (entry?_nil store)

theorem ne_of_free (hplace : store.entry? place = none)
    (hentry : store.entry? location = some entry) : location ≠ place := by
  rintro rfl
  cases hplace.symm.trans hentry

theorem entry?_put (hplace : place ≠ []) :
    entry? (store.put place entry) location =
      if location = place then some entry else store.entry? location := by
  by_cases hlocation : location = []
  · subst hlocation
    rw [entry?_nil, if_neg hplace.symm, entry?_nil]
  · rw [entry?_eq_lookup hlocation, entry?_eq_lookup hlocation, put, Entries.lookup_put]
    simp

theorem entry?_erase (hplace : place ≠ []) :
    entry? (store.erase place) location =
      if location = place then none else store.entry? location := by
  by_cases hlocation : location = []
  · subst hlocation
    rw [entry?_nil, if_neg hplace.symm, entry?_nil]
  · rw [entry?_eq_lookup hlocation, entry?_eq_lookup hlocation, erase, Entries.lookup_filter_ne]
    simp

variable {source target : Location} {step : String} {steps : List String} {path : Path}

theorem entry?_move (hsource : source ≠ []) (htarget : target ≠ [])
    (hentry : store.entry? source = some entry) :
    entry? (store.move source target) location =
      if location = target then some entry
      else if location = source then none else store.entry? location := by
  rw [move, hentry, entry?_put htarget, entry?_erase hsource]

/-- A place that is not the top directory where there is nothing can be found among numbered
ones: there are more numbers than entries. -/
theorem entry?_freePlace (store : Store) (home : Location) {name : Nat → String}
    (hname : Function.Injective name) : store.entry? (store.freePlace home name) = none := by
  rw [freePlace]
  cases hfree : (List.range (store.entries.length + 1)).find? fun number =>
      (store.entry? (home ++ [name number])).isNone with
  | some number => simpa using List.find?_some hfree
  | none =>
    exfalso
    have htaken : ((List.range (store.entries.length + 1)).map fun number =>
        home ++ [name number]) ⊆ store.entries.map Prod.fst := by
      intro place hplace
      obtain ⟨number, hnumber, rfl⟩ := List.mem_map.1 hplace
      have hthere := List.find?_eq_none.1 hfree number hnumber
      rw [Option.isNone_iff_eq_none, entry?_eq_lookup (by simp)] at hthere
      obtain ⟨entry, hentry⟩ := Option.ne_none_iff_exists'.1 hthere
      exact Entries.mem_keys_of_lookup hentry
    have hplaces : Function.Injective fun number => home ++ [name number] := by
      intro number other hnumbers
      exact hname (by simpa using hnumbers)
    have hcount := (List.subperm_of_subset (List.nodup_range.map hplaces) htaken).length_le
    simp at hcount

theorem freePlace_ne_nil (store : Store) (home : Location) (name : Nat → String) :
    store.freePlace home name ≠ [] := by
  simp [freePlace]

/-- The directory that paths start from is the same, and the entries that are `kept` stay
where they are. -/
structure Keeps (kept : Location → Entry → Prop) (before after : Store) : Prop where
  current_eq : after.current = before.current
  entry?_eq : ∀ {location entry}, kept location entry →
    before.entry? location = some entry → after.entry? location = some entry

/-- Nothing is lost. -/
abbrev Extends : Store → Store → Prop :=
  Keeps fun _ _ => True

abbrev KeepsDirectories : Store → Store → Prop :=
  Keeps fun _ entry => entry = .directory

/-- Nothing is lost, apart from the file at `place`. -/
abbrev KeepsBeside (place : Location) : Store → Store → Prop :=
  Keeps fun location entry => location ≠ place ∨ entry = .directory

namespace Keeps

variable {kept fewer : Location → Entry → Prop}

instance : Std.Refl (Keeps kept) :=
  ⟨fun _ => ⟨rfl, fun _ hentry => hentry⟩⟩

instance : IsTrans Store (Keeps kept) :=
  ⟨fun _ _ _ hfirst hsecond =>
    ⟨hsecond.current_eq.trans hfirst.current_eq,
      fun hkept hentry => hsecond.entry?_eq hkept (hfirst.entry?_eq hkept hentry)⟩⟩

theorem mono (hkeeps : Keeps kept before after)
    (hfewer : ∀ location entry, fewer location entry → kept location entry) :
    Keeps fewer before after :=
  ⟨hkeeps.current_eq, fun hkept => hkeeps.entry?_eq (hfewer _ _ hkept)⟩

end Keeps

theorem Extends.keeps {kept : Location → Entry → Prop} (hextends : Extends before after) :
    Keeps kept before after :=
  hextends.mono fun _ _ _ => trivial

/-- Something new takes nothing away. -/
theorem extends_put (hplace : store.entry? place = none) :
    Extends store (store.put place entry) := by
  have hne : place ≠ [] := ne_nil_of_not_directory fun hentry => by cases hplace.symm.trans hentry
  refine ⟨rfl, fun {location held} _ hheld => ?_⟩
  rw [entry?_put hne, if_neg (ne_of_free hplace hheld), hheld]

theorem extends_erase_put (hne : place ≠ []) (hplace : store.entry? place = none) :
    Extends store ((store.put place entry).erase place) := by
  refine ⟨rfl, fun {location held} _ hheld => ?_⟩
  have hother := ne_of_free hplace hheld
  rw [entry?_erase hne, if_neg hother, entry?_put hne, if_neg hother, hheld]

/-- A file that moves leaves its place and takes that of another file. -/
theorem keeps_move {content : ByteArray} (hsource : source ≠ [])
    (hfile : store.entry? source = some (.file content))
    (htarget : store.entry? target ≠ some .directory) :
    Keeps (fun location entry => location ≠ source ∧ location ≠ target ∨ entry = .directory)
      store (store.move source target) := by
  have hne := ne_nil_of_not_directory htarget
  refine ⟨by rw [move, hfile]; rfl, fun {location entry} hkept hentry => ?_⟩
  have hplaces : location ≠ source ∧ location ≠ target := by
    refine hkept.elim id ?_
    rintro rfl
    constructor
    · rintro rfl
      rw [hfile] at hentry
      cases hentry
    · rintro rfl
      exact htarget hentry
  rw [entry?_move hsource hne hfile, if_neg hplaces.2, if_neg hplaces.1, hentry]

theorem stepFrom_eq_ok_iff :
    store.stepFrom location step = .ok place ↔
      store.entry? location = some .directory ∧ admits step = true ∧
        Path.follow location step = place := by
  rw [stepFrom]
  cases hentry : store.entry? location with
  | none => simp
  | some entry =>
    cases entry with
    | file content => simp
    | directory => cases hadmits : admits step <;> simp

theorem walk_cons_eq_ok_iff :
    store.walk location (step :: steps) = .ok place ↔
      ∃ between, store.stepFrom location step = .ok between ∧
        store.walk between steps = .ok place := by
  rw [walk, List.foldlM_cons, Attempt.bind_eq_ok_iff]
  rfl

theorem walk_eq_foldl (hwalk : store.walk location steps = .ok place) :
    place = steps.foldl Path.follow location := by
  induction steps generalizing location with
  | nil => exact (Attempt.pure_eq_ok_iff.1 hwalk).symm
  | cons step steps ih =>
    obtain ⟨between, hstep, hrest⟩ := walk_cons_eq_ok_iff.1 hwalk
    rw [List.foldl_cons, (stepFrom_eq_ok_iff.1 hstep).2.2]
    exact ih hrest

/-- A path that leads somewhere leads to where it says. -/
theorem locate_eq_resolve (hlocate : store.locate path = .ok place) :
    place = path.resolve store.current :=
  walk_eq_foldl hlocate

namespace KeepsDirectories

variable {path : Path}

theorem walk_eq {steps : List String} (hkeeps : KeepsDirectories before after)
    (hwalk : before.walk location steps = .ok place) : after.walk location steps = .ok place := by
  induction steps generalizing location with
  | nil => exact hwalk
  | cons step steps ih =>
    obtain ⟨between, hstep, hrest⟩ := walk_cons_eq_ok_iff.1 hwalk
    obtain ⟨hdirectory, hrules⟩ := stepFrom_eq_ok_iff.1 hstep
    refine walk_cons_eq_ok_iff.2 ⟨between, stepFrom_eq_ok_iff.2 ⟨?_, hrules⟩, ih hrest⟩
    exact hkeeps.entry?_eq rfl hdirectory

/-- Where a path leads does not change as long as no directory is lost. -/
theorem locate_eq (hkeeps : KeepsDirectories before after)
    (hlocate : before.locate path = .ok place) : after.locate path = .ok place := by
  rw [locate, hkeeps.current_eq]
  exact hkeeps.walk_eq hlocate

end KeepsDirectories

/-- The last step of a path is made from where the others lead. -/
theorem locate_eq_bind {last : String} (hlast : path.steps.getLast? = some last) :
    store.locate path = store.locate path.parent >>= fun home => store.stepFrom home last := by
  obtain ⟨front, hsteps⟩ := List.getLast?_eq_some_iff.1 hlast
  rw [locate, locate, Path.parent, walk, walk, hsteps, List.dropLast_concat, List.foldlM_append]
  simp only [List.foldlM_cons, List.foldlM_nil, bind_pure]
  rfl

theorem directoryPlace_eq (hsteps : path.steps ≠ []) :
    store.directoryPlace path = store.locate path >>= fun place =>
      if path.name = Path.parentStep || (store.entry? place).isSome then .error .exists
      else .ok place := by
  obtain ⟨last, hlast⟩ := Option.ne_none_iff_exists'.1 (mt List.getLast?_eq_none_iff.1 hsteps)
  rw [directoryPlace, locate_eq_bind hlast, Path.name, hlast, bind_assoc]
  rfl

/-- A directory can be made where a path leads if there is nothing. -/
theorem directoryPlace_eq_ok_iff :
    store.directoryPlace path = .ok place ↔
      path.steps ≠ [] ∧ path.name ≠ Path.parentStep ∧ store.locate path = .ok place ∧
        store.entry? place = none := by
  by_cases hsteps : path.steps = []
  · simp [directoryPlace, hsteps]
  · rw [directoryPlace_eq hsteps, Attempt.bind_eq_ok_iff]
    simp only [ne_eq, hsteps, not_false_iff, true_and]
    constructor
    · rintro ⟨found, hfound, hplace⟩
      split_ifs at hplace with htaken
      cases hplace
      simpa [hfound] using htaken
    · rintro ⟨hname, hlocate, hnone⟩
      exact ⟨place, hlocate, if_neg (by simp [hname, hnone])⟩

theorem look_of_locate (hlocate : store.locate path = .ok place)
    (hentry : store.entry? place = some entry) : store.look path = .ok entry := by
  rw [look, hlocate, Attempt.ok_bind, hentry]
  rfl

end Store

namespace Disk

open Procedure

variable {store after : Store} {path : Path} {place : Location} {fault : DiskFault}

theorem makeDirectory_cases (path : Path) (store : Store) :
    (∃ place, store.directoryPlace path = .ok place ∧
      outcome (makeDirectory path) store = (.ok (), store.put place .directory)) ∨
    ∃ fault, outcome (makeDirectory path) store = (.error fault, store) ∧
      (path.holdsNul = false → ∃ error, store.directoryPlace path = .error error ∧
        fault = .onPath error path.toText) := by
  rw [makeDirectory, outcome_get_bind]
  by_cases hnul : path.holdsNul = true
  · rw [if_pos hnul]
    exact .inr ⟨_, rfl, fun hnot => absurd hnul (by simp [hnot])⟩
  · rw [if_neg hnul]
    cases hplace : store.directoryPlace path with
    | error error => exact .inr ⟨_, rfl, fun _ => ⟨error, rfl, rfl⟩⟩
    | ok place => exact .inl ⟨place, rfl, rfl⟩

/-- Making a directory adds it where there was nothing. -/
theorem makeDirectory_respects {relation : Store → Store → Prop} [Std.Refl relation]
    (hput : ∀ store place, store.directoryPlace path = .ok place →
      relation store (store.put place .directory)) : Respects relation (makeDirectory path) := by
  intro store
  obtain ⟨place, hplace, hrun⟩ | ⟨fault, hrun, -⟩ := makeDirectory_cases path store
  · rw [hrun]
    exact hput store place hplace
  · rw [hrun]
    exact Std.Refl.refl store

theorem makeDirectory_extends (path : Path) : Respects Store.Extends (makeDirectory path) :=
  makeDirectory_respects fun _ _ hplace =>
    Store.extends_put (Store.directoryPlace_eq_ok_iff.1 hplace).2.2.2

section MakeDirectories

variable {relation : Path → Store → Store → Prop} [∀ path, Std.Refl (relation path)]
  [∀ path, IsTrans Store (relation path)]

/-- A directory that could not be made is looked for, which changes nothing. -/
theorem unlessDirectory_respects (path : Path) (fault : DiskFault) :
    Respects (relation path) (do
      if fault = .nulInPath || !(← get).isDirectory path then throw fault : Disk Unit) :=
  Respects.get.bind fun _ => (Respects.throw fault).ite (Respects.pure ())

/-- Whatever holds of making one directory holds of making those on the way, too. -/
theorem makeDirectories_respects (hmake : ∀ path, Respects (relation path) (makeDirectory path))
    (hparent : ∀ path before after, relation path.parent before after →
      relation path before after) (path : Path) :
    Respects (relation path) (makeDirectories path) := by
  have hensure : ∀ path, Respects (relation path) (ensureDirectory path) := fun path =>
    (hmake path).tryCatch (unlessDirectory_respects path)
  have hgo : ∀ count path, Respects (relation path) (makeDirectories.go count path) := by
    intro count
    induction count with
    | zero =>
      intro path
      rw [makeDirectories.go]
      exact hensure path
    | succ count ih =>
      intro path
      rw [makeDirectories.go]
      refine (hmake path).tryCatch fun fault => ?_
      refine Respects.ite (Respects.bind ?_ fun _ => hensure path)
        (unlessDirectory_respects path fault)
      exact fun store => hparent path _ _ (ih path.parent store)
  exact hgo path.steps.length path

end MakeDirectories

theorem makeDirectories_extends (path : Path) :
    Respects Store.Extends (makeDirectories path) :=
  makeDirectories_respects makeDirectory_extends (fun _ _ _ => id) path

/-- Where content for a path is staged: beside what the path leads to, where there is
nothing. -/
structure IsStaging (path : Path) (store : Store) (place : Location) : Prop where
  fits : path.name.utf8ByteSize + stagingOverhead ≤ Store.nameLimit
  ne_nil : place ≠ []
  free : store.entry? place = none
  beside : ∃ number, place = path.parent.resolve store.current ++ [stagingName path.name number]

/-- Content is staged where there was nothing, which leaves an empty file if it has no
encoding; or nothing changes. -/
theorem stage_cases (path : Path) (content : Content) (store : Store) :
    (∃ fault, (path.holdsNul = false → fault.isRefusal = true) ∧
      (path.holdsNul = true ∨ Store.nameLimit < path.name.utf8ByteSize + stagingOverhead ∨
        ∃ error, store.locate path.parent = .error error) ∧
      outcome (stage path content) store = (.error fault, store)) ∨
    ∃ place, IsStaging path store place ∧
      ((content.isText = true ∧
          outcome (stage path content) store =
            (.ok place, store.put place (.file content.text.toUTF8))) ∨
        (content.isText = false ∧
          outcome (stage path content) store =
            (.error (.notEncoded content.fault), store.put place (.file .empty)))) := by
  rw [stage, outcome_get_bind]
  by_cases hnul : path.holdsNul = true
  · rw [if_pos hnul]
    exact .inl ⟨_, fun hnot => absurd hnul (by simp [hnot]), .inl hnul, rfl⟩
  rw [if_neg hnul]
  by_cases hlong : Store.nameLimit < path.name.utf8ByteSize + stagingOverhead
  · rw [if_pos hlong]
    exact .inl ⟨_, fun _ => rfl, .inr (.inl hlong), rfl⟩
  rw [if_neg hlong]
  cases hhome : store.locate path.parent with
  | error error => exact .inl ⟨_, fun _ => rfl, .inr (.inr ⟨error, rfl⟩), rfl⟩
  | ok home =>
    refine .inr ⟨_, ⟨Nat.le_of_not_lt hlong, store.freePlace_ne_nil home _,
      store.entry?_freePlace home (stagingName_injective path.name),
      ⟨_, by rw [Store.freePlace, Store.locate_eq_resolve hhome]⟩⟩, ?_⟩
    cases htext : content.isText with
    | true =>
      refine .inl ⟨rfl, ?_⟩
      simp only [Content.encode, htext, if_true]
      rfl
    | false =>
      refine .inr ⟨rfl, ?_⟩
      simp only [Content.encode, htext, Bool.false_eq_true, if_false]
      rfl

/-- A staged file moves to where the path leads unless there is a directory, or nothing
changes. -/
theorem moveTo_cases (path : Path) (staged : Location) (store : Store) :
    (∃ fault, fault.isRefusal = true ∧
      (path.steps = [] ∨ path.name = Path.parentStep ∨ ∀ place, store.locate path = .ok place →
        store.entry? place = some .directory) ∧
      outcome (moveTo path staged) store = (.error fault, store)) ∨
    ∃ place, store.locate path = .ok place ∧ store.entry? place ≠ some .directory ∧
      outcome (moveTo path staged) store = (.ok (), store.move staged place) := by
  rw [moveTo, outcome_get_bind]
  by_cases hbusy : (path.steps.isEmpty || path.name = Path.parentStep) = true
  · rw [if_pos hbusy]
    refine .inl ⟨_, rfl, ?_, rfl⟩
    rw [Bool.or_eq_true, List.isEmpty_iff, decide_eq_true_eq] at hbusy
    exact hbusy.imp_right .inl
  rw [if_neg hbusy]
  cases hlocate : store.locate path with
  | error error => exact .inl ⟨_, rfl, .inr (.inr fun place hplace => by cases hplace), rfl⟩
  | ok place =>
    by_cases hentry : store.entry? place = some .directory
    · refine .inl ⟨_, rfl, .inr (.inr fun other hother => ?_), by simp only [hentry]; rfl⟩
      cases hother
      exact hentry
    · refine .inr ⟨place, rfl, hentry, ?_⟩
      cases hfound : store.entry? place with
      | none =>
        simp only [hfound]
        rfl
      | some entry =>
        cases entry with
        | directory => exact absurd hfound hentry
        | file bytes =>
          simp only [hfound]
          rfl

/-- How the replacement of a file ends, and the store that it leaves. -/
inductive ReplaceEnding (path : Path) (content : Content) (store : Store) :
    Except DiskFault Unit → Store → Prop where
  /-- The directories cannot be made. -/
  | blocked {fault : DiskFault} {between : Store} :
      outcome (makeDirectories path.parent) store = (.error fault, between) →
      ReplaceEnding path content store (.error fault) between
  /-- Nothing can be staged. -/
  | unstaged {fault : DiskFault} {between : Store} :
      outcome (makeDirectories path.parent) store = (.ok (), between) →
      (path.holdsNul = false → fault.isRefusal = true) →
      (path.holdsNul = true ∨ Store.nameLimit < path.name.utf8ByteSize + stagingOverhead ∨
        ∃ error, between.locate path.parent = .error error) →
      ReplaceEnding path content store (.error fault) between
  /-- The content has no encoding, and the file that it was to be staged in stays. -/
  | unencoded {between : Store} {staged : Location} :
      outcome (makeDirectories path.parent) store = (.ok (), between) →
      IsStaging path between staged → content.isText = false →
      ReplaceEnding path content store (.error (.notEncoded content.fault))
        (between.put staged (.file .empty))
  /-- The staged file cannot be moved. -/
  | undone {fault : DiskFault} {between : Store} {staged : Location} :
      outcome (makeDirectories path.parent) store = (.ok (), between) →
      IsStaging path between staged → content.isText = true → fault.isRefusal = true →
      (path.steps = [] ∨ path.name = Path.parentStep ∨ ∀ place,
        Store.locate (between.put staged (.file content.text.toUTF8)) path = .ok place →
        Store.entry? (between.put staged (.file content.text.toUTF8)) place = some .directory) →
      ReplaceEnding path content store (.error fault)
        (Store.erase (between.put staged (.file content.text.toUTF8)) staged)
  | replaced {between : Store} {staged place : Location} :
      outcome (makeDirectories path.parent) store = (.ok (), between) →
      IsStaging path between staged → content.isText = true →
      Store.locate (between.put staged (.file content.text.toUTF8)) path = .ok place →
      Store.entry? (between.put staged (.file content.text.toUTF8)) place ≠ some .directory →
      ReplaceEnding path content store (.ok ())
        (Store.move (between.put staged (.file content.text.toUTF8)) staged place)

theorem replaceFile_ending (path : Path) (content : Content) (store : Store) :
    ∃ ending after, outcome (replaceFile path content) store = (ending, after) ∧
      ReplaceEnding path content store ending after := by
  rw [replaceFile]
  cases hmade : outcome (makeDirectories path.parent) store with
  | mk ending between =>
    cases ending with
    | error fault =>
      rw [outcome_bind_of_error hmade]
      exact ⟨_, _, rfl, .blocked hmade⟩
    | ok _ =>
      rw [outcome_bind_of_ok hmade]
      obtain ⟨fault, hrefusal, hwhy, hstage⟩ | ⟨staged, hstaged, ⟨htext, hstage⟩ |
        ⟨htext, hstage⟩⟩ := stage_cases path content between
      · rw [outcome_bind_of_error hstage]
        exact ⟨_, _, rfl, .unstaged hmade hrefusal hwhy⟩
      · rw [outcome_bind_of_ok hstage]
        obtain ⟨fault, hrefusal, hwhy, hmove⟩ | ⟨place, hlocate, hplace, hmove⟩ :=
          moveTo_cases path staged (between.put staged (.file content.text.toUTF8))
        · rw [outcome_tryCatch_of_error hmove]
          exact ⟨_, _, rfl, .undone hmade hstaged htext hrefusal hwhy⟩
        · rw [outcome_tryCatch_of_ok hmove]
          exact ⟨_, _, rfl, .replaced hmade hstaged htext hlocate hplace⟩
      · rw [outcome_bind_of_error hstage]
        exact ⟨_, _, rfl, .unencoded hmade hstaged htext⟩

end Disk

namespace Store

/-- The file that a path leads to holds `text`, and everything else is kept. -/
structure Replaced (path : Path) (text : String) (before after : Store) : Prop where
  keepsBeside : KeepsBeside (path.resolve before.current) before after
  locate_eq : after.locate path = .ok (path.resolve before.current)
  entry?_eq : after.entry? (path.resolve before.current) = some (.file text.toUTF8)

variable {path : Path} {text : String}

theorem replaced_move {staged : Location} (hstaged : staged ≠ [])
    (hfree : store.entry? staged = none)
    (hlocate : (store.put staged (.file text.toUTF8)).locate path = .ok place)
    (hplace : entry? (store.put staged (.file text.toUTF8)) place ≠ some .directory) :
    Replaced path text store ((store.put staged (.file text.toUTF8)).move staged place) := by
  generalize hstore : store.put staged (.file text.toUTF8) = between at *
  have hextends : Extends store between := hstore ▸ extends_put hfree
  have hfile : between.entry? staged = some (.file text.toUTF8) := by
    rw [← hstore, entry?_put hstaged, if_pos rfl]
  have hne := ne_nil_of_not_directory hplace
  obtain rfl : place = path.resolve store.current := hextends.current_eq ▸ locate_eq_resolve hlocate
  have hmove := keeps_move hstaged hfile hplace
  refine ⟨⟨hmove.current_eq.trans hextends.current_eq, fun {location held} hkept hheld => ?_⟩,
    ?_, ?_⟩
  · have hnew := ne_of_free hfree hheld
    exact hmove.entry?_eq (hkept.imp_left fun hother => ⟨hnew, hother⟩)
      (hextends.entry?_eq trivial hheld)
  · exact KeepsDirectories.locate_eq (hmove.mono fun _ _ => .inr) hlocate
  · rw [entry?_move hstaged hne hfile, if_pos rfl]

/-- Whatever is lost later is lost at once. -/
theorem Extends.replaced (hextends : Extends before between)
    (hreplaced : Replaced path text between after) : Replaced path text before after := by
  obtain ⟨hkeeps, hlocate, hentry⟩ := hreplaced
  rw [hextends.current_eq] at hkeeps hlocate hentry
  exact ⟨IsTrans.trans _ _ _ hextends.keeps hkeeps, hlocate, hentry⟩

end Store

namespace Disk

namespace ReplaceEnding

variable {path : Path} {content : Content} {store after : Store} {fault : DiskFault}

theorem replaced_of_ok (hending : ReplaceEnding path content store (.ok ()) after) :
    content.isText = true ∧ Store.Replaced path content.text store after := by
  cases hending with
  | replaced hmade hstaged htext hlocate hplace =>
    exact ⟨htext, ((makeDirectories_extends _).of_outcome hmade).replaced
      (Store.replaced_move hstaged.ne_nil hstaged.free hlocate hplace)⟩

/-- A fault takes nothing away. -/
theorem extends_of_error (hending : ReplaceEnding path content store (.error fault) after) :
    Store.Extends store after := by
  cases hending with
  | blocked hmade | unstaged hmade => exact (makeDirectories_extends _).of_outcome hmade
  | unencoded hmade hstaged =>
    exact IsTrans.trans _ _ _ ((makeDirectories_extends _).of_outcome hmade)
      (Store.extends_put hstaged.free)
  | undone hmade hstaged =>
    exact IsTrans.trans _ _ _ ((makeDirectories_extends _).of_outcome hmade)
      (Store.extends_erase_put hstaged.ne_nil hstaged.free)

end ReplaceEnding

end Disk

end Debundle
