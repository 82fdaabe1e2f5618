import Debundle.Proofs.Disk.Confinement

/-!
# When the directories of a path can be made

The directory that a path leads to is tried first.  As long as one is missing, the one before
it is made, so that every directory on the way is made in the end unless a file is there, a
name is too long or the path starts from nothing.
-/

namespace Debundle

open Procedure

def Entry.content? : Entry → Option ByteArray
  | .directory => none
  | .file content => some content

theorem Path.holdsNul_parent {path : Path} (hnul : path.holdsNul = false) :
    path.parent.holdsNul = false := by
  rw [holdsNul, List.any_eq_false] at hnul ⊢
  exact fun step hstep => hnul step (List.mem_of_mem_dropLast hstep)

namespace Store

variable {store before after : Store} {path : Path} {location place : Location}

/-- The content of the file at a place, if there is one. -/
def content? (store : Store) (place : Location) : Option ByteArray :=
  (store.entry? place).bind Entry.content?

theorem content?_of_directory (hentry : store.entry? place = some .directory) :
    store.content? place = none := by
  rw [content?, hentry]
  rfl

theorem content?_of_file {content : ByteArray}
    (hentry : store.entry? place = some (.file content)) :
    store.content? place = some content := by
  rw [content?, hentry]
  rfl

theorem content?_of_free (hentry : store.entry? place = none) : store.content? place = none := by
  rw [content?, hentry]
  rfl

/-- Directories that are made change no file. -/
theorem AddsAlong.content?_eq (hadds : AddsAlong path before after) :
    after.content? = before.content? := by
  funext place
  by_cases hsame : after.entry? place = before.entry? place
  · rw [content?, hsame, content?]
  · obtain ⟨-, hnone, hdirectory⟩ := hadds.added place hsame
    rw [content?_of_free hnone, content?_of_directory hdirectory]

/-- Whatever there is lies in a directory. -/
def IsTree (store : Store) : Prop :=
  ∀ place step, store.entry? (place ++ [step]) ≠ none → store.entry? place = some .directory

theorem IsTree.dropLast (htree : store.IsTree) (hplace : store.entry? place = some .directory) :
    store.entry? place.dropLast = some .directory := by
  obtain rfl | ⟨home, last, rfl⟩ := List.eq_nil_or_concat place
  · exact hplace
  · rw [List.concat_eq_append] at hplace ⊢
    rw [List.dropLast_concat]
    exact htree home last (by simp [hplace])

/-- Nothing stands in the way of a path: it starts from a directory, its names can stand in
directories, and it leads past no file and to none. -/
structure IsOpen (store : Store) (path : Path) : Prop where
  start_eq : store.entry? (path.start store.current) = some .directory
  admits : ∀ step ∈ path.steps, Store.admits step = true
  no_file : ∀ place ∈ path.waypoints store.current, store.content? place = none

theorem IsOpen.parent (hopen : store.IsOpen path) : store.IsOpen path.parent where
  start_eq := hopen.start_eq
  admits := fun step hstep => hopen.admits step (List.mem_of_mem_dropLast hstep)
  no_file := fun place hplace => hopen.no_file place (path.waypoints_parent_subset _ hplace)

theorem IsOpen.of_addsAlong {other : Path} (hopen : before.IsOpen path)
    (hadds : AddsAlong other before after) : after.IsOpen path := by
  refine ⟨?_, hopen.admits, fun place hplace => ?_⟩
  · rw [hadds.current_eq]
    by_contra hchanged
    have hadded := hadds.added _ fun hsame => hchanged (hsame.trans hopen.start_eq)
    exact hchanged hadded.2.2
  · rw [hadds.current_eq] at hplace
    rw [hadds.content?_eq]
    exact hopen.no_file place hplace

/-- Past no file a walk comes to its end or to where there is nothing. -/
theorem walk_of_no_file {steps : List String} (hadmits : ∀ step ∈ steps, admits step = true)
    (hfiles : ∀ count ≤ steps.length,
      store.content? ((steps.take count).foldl Path.follow location) = none) :
    (∃ place, store.walk location steps = .ok place) ∨
      store.walk location steps = .error .missing := by
  induction steps generalizing location with
  | nil => exact .inl ⟨location, rfl⟩
  | cons step steps ih =>
    rw [walk, List.foldlM_cons]
    have hhere := hfiles 0 (Nat.zero_le _)
    cases hentry : store.entry? location with
    | none => exact .inr (by rw [stepFrom, hentry]; rfl)
    | some entry =>
      cases entry with
      | file content => cases hhere.symm.trans (content?_of_file hentry)
      | directory =>
        rw [stepFrom_eq_ok_iff.2 ⟨hentry, hadmits step List.mem_cons_self, rfl⟩]
        refine ih (fun other hother => hadmits other (List.mem_cons_of_mem _ hother))
          fun count hcount => ?_
        exact hfiles (count + 1) (Nat.succ_le_succ hcount)

theorem IsOpen.locate_eq (hopen : store.IsOpen path) :
    (∃ place, store.locate path = .ok place) ∨ store.locate path = .error .missing :=
  walk_of_no_file hopen.admits fun _ hcount =>
    hopen.no_file _ (Path.mem_waypoints_iff.2 ⟨_, hcount, rfl⟩)

theorem isDirectory_iff :
    store.isDirectory path = true ↔
      ∃ place, store.locate path = .ok place ∧ store.entry? place = some .directory := by
  rw [isDirectory, look]
  cases hlocate : store.locate path with
  | error error =>
    refine iff_of_false Bool.false_ne_true ?_
    rintro ⟨place, hplace, -⟩
    cases hplace
  | ok place =>
    rw [Attempt.ok_bind]
    cases hentry : store.entry? place with
    | none => simp [hentry]
    | some entry =>
      cases entry with
      | directory => exact iff_of_true rfl ⟨place, rfl, hentry⟩
      | file content =>
        refine iff_of_false Bool.false_ne_true ?_
        rintro ⟨_, ⟨⟩, hdirectory⟩
        cases hentry.symm.trans hdirectory

/-- In a directory every name that can stand there leads on. -/
theorem exists_locate (hadmits : admits path.name = true)
    (hparent : store.isDirectory path.parent = true) :
    ∃ place, store.locate path = .ok place := by
  cases hlast : path.steps.getLast? with
  | none => exact ⟨_, by rw [locate, walk, List.getLast?_eq_none_iff.1 hlast]; rfl⟩
  | some last =>
    obtain ⟨home, hhome, hdirectory⟩ := isDirectory_iff.1 hparent
    rw [Path.name, hlast, Option.getD_some] at hadmits
    refine ⟨Path.follow home last, ?_⟩
    rw [locate_eq_bind hlast, hhome, Attempt.ok_bind]
    exact stepFrom_eq_ok_iff.2 ⟨hdirectory, hadmits, rfl⟩

/-- In a tree a step up leads to a directory, and so does no step. -/
theorem IsOpen.directory_of_locate (hopen : store.IsOpen path) (htree : store.IsTree)
    (hlocate : store.locate path = .ok place)
    (hname : path.steps = [] ∨ path.name = Path.parentStep) :
    store.entry? place = some .directory := by
  cases hlast : path.steps.getLast? with
  | none =>
    rw [locate, walk, List.getLast?_eq_none_iff.1 hlast] at hlocate
    exact Attempt.pure_eq_ok_iff.1 hlocate ▸ hopen.start_eq
  | some last =>
    have hsteps : path.steps ≠ [] := by
      intro hnil
      rw [hnil] at hlast
      cases hlast
    have hup := hname.resolve_left hsteps
    rw [Path.name, hlast, Option.getD_some] at hup
    rw [locate_eq_bind hlast, Attempt.bind_eq_ok_iff] at hlocate
    obtain ⟨home, -, hstep⟩ := hlocate
    obtain ⟨hdirectory, -, rfl⟩ := stepFrom_eq_ok_iff.1 hstep
    rw [Path.follow, if_pos hup]
    exact htree.dropLast hdirectory

/-- A path that leads to a directory passes directories only. -/
theorem directory_of_isDirectory (hdirectory : store.isDirectory path = true)
    (hmem : place ∈ path.waypoints store.current) : store.entry? place = some .directory := by
  obtain ⟨target, hlocate, htarget⟩ := isDirectory_iff.1 hdirectory
  obtain ⟨count, hcount, rfl⟩ := Path.mem_waypoints_iff.1 hmem
  obtain hend | hbefore := Nat.eq_or_lt_of_le hcount
  · rw [hend, List.take_length]
    exact walk_eq_foldl hlocate ▸ htarget
  · exact directory_of_walk hlocate hbefore

theorem isOpen_of_isDirectory (hdirectory : store.isDirectory path = true) :
    store.IsOpen path := by
  obtain ⟨target, hlocate, -⟩ := isDirectory_iff.1 hdirectory
  refine ⟨directory_of_isDirectory hdirectory ?_, admits_of_walk hlocate, fun place hmem => ?_⟩
  · exact Path.mem_waypoints_iff.2 ⟨0, Nat.zero_le _, rfl⟩
  · exact content?_of_directory (directory_of_isDirectory hdirectory hmem)

end Store

namespace Disk

open Store

variable {store after : Store} {path : Path}

/-- A directory of an open path is made, or a directory before it is missing, or it is there. -/
theorem makeDirectory_of_isOpen (htree : store.IsTree) (hopen : store.IsOpen path)
    (hnul : path.holdsNul = false) :
    (∃ after, outcome (makeDirectory path) store = (.ok (), after)) ∨
    ∃ fault, outcome (makeDirectory path) store = (.error fault, store) ∧
      ((fault.isMissing = true ∧ path.steps ≠ [] ∧ store.isDirectory path.parent = false) ∨
        (fault.isMissing = false ∧ fault ≠ .nulInPath ∧ store.isDirectory path = true)) := by
  obtain ⟨place, -, hrun⟩ | ⟨fault, hrun, hwhy⟩ := makeDirectory_cases path store
  · exact .inl ⟨_, hrun⟩
  refine .inr ⟨fault, hrun, ?_⟩
  obtain ⟨error, hplace, rfl⟩ := hwhy hnul
  obtain ⟨place, hlocate⟩ | hlocate := hopen.locate_eq
  · -- The path leads somewhere, and the only reason left is that there is something.
    have herror : error = .exists ∧ store.entry? place = some .directory := by
      by_cases hsteps : path.steps = []
      · rw [directoryPlace, hsteps] at hplace
        cases hplace
        exact ⟨rfl, hopen.directory_of_locate htree hlocate (.inl hsteps)⟩
      rw [directoryPlace_eq hsteps, hlocate, Attempt.ok_bind] at hplace
      split_ifs at hplace with htaken
      cases hplace
      refine ⟨rfl, ?_⟩
      by_cases hname : path.name = Path.parentStep
      · exact hopen.directory_of_locate htree hlocate (.inr hname)
      · simp only [hname, decide_false, Bool.false_or, Option.isSome_iff_exists] at htaken
        obtain ⟨entry, hentry⟩ := htaken
        cases entry with
        | directory => exact hentry
        | file content =>
          have hend := hopen.no_file _ (path.resolve_mem_waypoints store.current)
          rw [← locate_eq_resolve hlocate, content?_of_file hentry] at hend
          cases hend
    obtain ⟨rfl, hdirectory⟩ := herror
    exact .inr ⟨rfl, fun hsame => (by cases hsame), isDirectory_iff.2 ⟨place, hlocate, hdirectory⟩⟩
  · have hsteps : path.steps ≠ [] := by
      intro hnil
      rw [locate, walk, hnil] at hlocate
      cases hlocate
    rw [directoryPlace_eq hsteps, hlocate] at hplace
    cases hplace
    refine .inl ⟨rfl, hsteps, Bool.eq_false_iff.2 fun hparent => ?_⟩
    obtain ⟨last, hlast⟩ := Option.ne_none_iff_exists'.1 (mt List.getLast?_eq_none_iff.1 hsteps)
    have hname : path.name = last := by rw [Path.name, hlast, Option.getD_some]
    have hadmits := hopen.admits path.name (hname ▸ List.mem_of_getLast? hlast)
    obtain ⟨place, hplace⟩ := exists_locate hadmits hparent
    cases hlocate.symm.trans hplace

theorem makeDirectories_isTree (path : Path) :
    Respects (fun before after => before.IsTree → after.IsTree) (makeDirectories path) := by
  have : Std.Refl fun before after : Store => before.IsTree → after.IsTree := ⟨fun _ => id⟩
  have : IsTrans Store fun before after => before.IsTree → after.IsTree :=
    ⟨fun _ _ _ hfirst hsecond htree => hsecond (hfirst htree)⟩
  refine @makeDirectories_respects (fun _ before after => before.IsTree → after.IsTree) _ _
    (fun path => makeDirectory_respects fun store place hplace => ?_) (fun _ _ _ => id) path
  obtain ⟨hsteps, hname, hlocate, hnone⟩ := directoryPlace_eq_ok_iff.1 hplace
  intro htree home step hstep
  have hne : place ≠ [] := ne_nil_of_not_directory fun hentry => by cases hnone.symm.trans hentry
  have hkept : ∀ other, store.entry? other = some .directory →
      Store.entry? (store.put place .directory) other = some .directory := fun other =>
    (extends_put hnone).entry?_eq trivial
  rw [entry?_put hne] at hstep
  split_ifs at hstep with hnew
  · obtain ⟨last, hlast⟩ := Option.ne_none_iff_exists'.1 (mt List.getLast?_eq_none_iff.1 hsteps)
    rw [Path.name, hlast, Option.getD_some] at hname
    rw [locate_eq_bind hlast, Attempt.bind_eq_ok_iff] at hlocate
    obtain ⟨found, -, hfound⟩ := hlocate
    obtain ⟨hdirectory, -, hfollow⟩ := stepFrom_eq_ok_iff.1 hfound
    rw [Path.follow, if_neg hname, ← hnew] at hfollow
    obtain rfl := (List.append_inj' hfollow rfl).1
    exact hkept _ hdirectory
  · exact hkept home (htree home step hstep)

/-- Directories are made only where the path starts from one. -/
theorem makeDirectories_start (path : Path)
    (hstart : store.entry? (path.start store.current) ≠ some .directory) :
    (outcome (makeDirectories path) store).2 = store := by
  let steady (path : Path) (before after : Store) : Prop :=
    before.entry? (path.start before.current) ≠ some .directory → after = before
  have : ∀ path, Std.Refl (steady path) := fun _ => ⟨fun _ _ => rfl⟩
  have : ∀ path, IsTrans Store (steady path) := by
    refine fun path => ⟨fun before between after hfirst hsecond hbefore => ?_⟩
    obtain rfl := hfirst hbefore
    exact hsecond hbefore
  refine @makeDirectories_respects steady _ _ (fun path => ?_) (fun _ _ _ => id) path store hstart
  refine makeDirectory_respects fun store place hplace hnot => ?_
  obtain ⟨hsteps, -, hlocate, -⟩ := directoryPlace_eq_ok_iff.1 hplace
  exact absurd (directory_of_walk hlocate (List.length_pos_of_ne_nil hsteps)) hnot

/-- A directory is there if making it, or looking for it, ends without a fault; and a fault is a
refusal. -/
def Settles (path : Path) (action : Disk Unit) : Prop :=
  ∀ store, ∃ ending after, outcome action store = (ending, after) ∧
    (ending = .ok () → after.isDirectory path = true) ∧
    ∀ fault, ending = .error fault → path.holdsNul = false → fault.isRefusal = true

theorem unlessDirectory_settles {fault : DiskFault}
    (hfault : path.holdsNul = false → fault.isRefusal = true) :
    Settles path (do
      if fault = .nulInPath || !(← get).isDirectory path then throw fault) := by
  intro store
  rw [outcome_get_bind]
  by_cases hthrow : (fault = .nulInPath || !store.isDirectory path) = true
  · rw [if_pos hthrow]
    refine ⟨_, _, rfl, (fun hok => by cases hok), ?_⟩
    rintro _ ⟨⟩
    exact hfault
  · rw [if_neg hthrow]
    refine ⟨_, _, rfl, fun _ => ?_, fun other hother => by cases hother⟩
    simp only [Bool.or_eq_true, not_or, Bool.not_eq_true, Bool.not_eq_false'] at hthrow
    exact hthrow.2

/-- What is done about a fault settles what making a directory has left open. -/
theorem tryCatch_makeDirectory_settles {handler : DiskFault → Disk Unit}
    (hhandler : ∀ fault, (path.holdsNul = false → fault.isRefusal = true) →
      Settles path (handler fault)) :
    Settles path (tryCatch (makeDirectory path) handler) := by
  intro store
  obtain ⟨place, hplace, hrun⟩ | ⟨fault, hrun, hwhy⟩ := makeDirectory_cases path store
  · rw [outcome_tryCatch_of_ok hrun]
    refine ⟨_, _, rfl, fun _ => isDirectory_iff.2 ⟨place, ?_, ?_⟩,
      fun other hother => by cases hother⟩
    · obtain ⟨-, -, hlocate, hnone⟩ := directoryPlace_eq_ok_iff.1 hplace
      exact KeepsDirectories.locate_eq (extends_put hnone).keeps hlocate
    · obtain ⟨-, -, -, hnone⟩ := directoryPlace_eq_ok_iff.1 hplace
      have hne : place ≠ [] := ne_nil_of_not_directory fun hentry => by
        cases hnone.symm.trans hentry
      rw [entry?_put hne, if_pos rfl]
  · rw [outcome_tryCatch_of_error hrun]
    refine hhandler fault (fun hnul => ?_) store
    obtain ⟨error, -, rfl⟩ := hwhy hnul
    rfl

theorem makeDirectories_settles (path : Path) : Settles path (makeDirectories path) := by
  have hensure : ∀ path, Settles path (ensureDirectory path) := fun path =>
    tryCatch_makeDirectory_settles fun _ => unlessDirectory_settles
  have hgo : ∀ count path, Settles path (makeDirectories.go count path) := by
    intro count
    induction count with
    | zero =>
      intro path
      rw [makeDirectories.go]
      exact hensure path
    | succ count ih =>
      intro path
      rw [makeDirectories.go]
      refine tryCatch_makeDirectory_settles fun fault hfault store => ?_
      by_cases hmissing : fault.isMissing = true
      · rw [if_pos hmissing]
        obtain ⟨ending, between, hrun, -, hrefusal⟩ := ih path.parent store
        cases ending with
        | ok _ =>
          rw [outcome_bind_of_ok hrun]
          exact hensure path between
        | error fault =>
          rw [outcome_bind_of_error hrun]
          refine ⟨_, _, rfl, (fun hok => by cases hok), fun other hother hnul => ?_⟩
          exact hrefusal other hother (Path.holdsNul_parent hnul)
      · rw [if_neg hmissing]
        exact unlessDirectory_settles hfault store
  exact hgo path.steps.length path

theorem isDirectory_of_makeDirectories
    (hmade : outcome (makeDirectories path) store = (.ok (), after)) :
    after.isDirectory path = true := by
  obtain ⟨ending, last, hlast, hdirectory, -⟩ := makeDirectories_settles path store
  cases hmade.symm.trans hlast
  exact hdirectory rfl

theorem isRefusal_of_makeDirectories {fault : DiskFault} (hnul : path.holdsNul = false)
    (hmade : outcome (makeDirectories path) store = (.error fault, after)) :
    fault.isRefusal = true := by
  obtain ⟨ending, last, hlast, -, hrefusal⟩ := makeDirectories_settles path store
  cases hmade.symm.trans hlast
  exact hrefusal fault rfl hnul

theorem unlessDirectory_of_isDirectory {fault : DiskFault} (hfault : fault ≠ .nulInPath)
    (hdirectory : store.isDirectory path = true) :
    outcome (do if fault = .nulInPath || !(← get).isDirectory path then throw fault : Disk Unit)
      store = (.ok (), store) := by
  rw [outcome_get_bind, if_neg (by simp [hfault, hdirectory])]
  rfl

theorem ensureDirectory_of_isOpen (htree : store.IsTree) (hnul : path.holdsNul = false)
    (hopen : store.IsOpen path)
    (hparent : path.steps ≠ [] → store.isDirectory path.parent = true) :
    ∃ after, outcome (ensureDirectory path) store = (.ok (), after) := by
  rw [ensureDirectory]
  obtain ⟨after, hrun⟩ | ⟨fault, hrun, ⟨-, hsteps, hnot⟩ | ⟨-, hfault, hdirectory⟩⟩ :=
    makeDirectory_of_isOpen htree hopen hnul
  · exact ⟨after, outcome_tryCatch_of_ok hrun⟩
  · cases hnot.symm.trans (hparent hsteps)
  · rw [outcome_tryCatch_of_error hrun]
    exact ⟨store, unlessDirectory_of_isDirectory hfault hdirectory⟩

theorem makeDirectories_of_isOpen (htree : store.IsTree) (hnul : path.holdsNul = false)
    (hopen : store.IsOpen path) :
    ∃ after, outcome (makeDirectories path) store = (.ok (), after) := by
  induction hlength : path.steps.length generalizing path with
  | zero =>
    rw [makeDirectories, hlength, makeDirectories.go]
    refine ensureDirectory_of_isOpen htree hnul hopen fun hsteps => ?_
    exact absurd (List.length_eq_zero_iff.1 hlength) hsteps
  | succ count ih =>
    have hparent : path.parent.steps.length = count := by
      rw [Path.parent, List.length_dropLast, hlength, Nat.add_sub_cancel]
    obtain ⟨between, hmade⟩ := ih (Path.holdsNul_parent hnul) hopen.parent hparent
    rw [makeDirectories, hlength, makeDirectories.go]
    obtain ⟨after, hrun⟩ | ⟨fault, hrun, ⟨hmissing, -⟩ | ⟨hmissing, hfault, hdirectory⟩⟩ :=
      makeDirectory_of_isOpen htree hopen hnul
    · exact ⟨after, outcome_tryCatch_of_ok hrun⟩
    · -- Once the directories before it are made, nothing is missing any more.
      rw [outcome_tryCatch_of_error hrun, if_pos hmissing]
      have htree' := (makeDirectories_isTree _).of_outcome hmade
      have hadds := (makeDirectories_addsAlong _).of_outcome hmade
      have hdirectory := isDirectory_of_makeDirectories hmade
      rw [makeDirectories, hparent] at hmade
      rw [outcome_bind_of_ok hmade]
      exact ensureDirectory_of_isOpen (htree' htree) hnul (hopen.of_addsAlong hadds) fun _ =>
        hdirectory
    · rw [outcome_tryCatch_of_error hrun, if_neg (by simp [hmissing])]
      exact ⟨store, unlessDirectory_of_isDirectory hfault hdirectory⟩

/-- In a tree nothing but a file in the way, a name that is too long or a start that is no
directory keeps the directories of a path from being made. -/
theorem makeDirectories_eq_ok_iff (htree : store.IsTree) (hnul : path.holdsNul = false) :
    (∃ after, outcome (makeDirectories path) store = (.ok (), after)) ↔ store.IsOpen path := by
  constructor
  · rintro ⟨after, hrun⟩
    have hopen := isOpen_of_isDirectory (isDirectory_of_makeDirectories hrun)
    have hadds := (makeDirectories_addsAlong _).of_outcome hrun
    refine ⟨?_, hopen.admits, fun place hplace => ?_⟩
    · by_contra hstart
      have hsame := makeDirectories_start path hstart
      rw [hrun] at hsame
      exact hstart (hsame ▸ hopen.start_eq)
    · rw [← hadds.current_eq] at hplace
      exact hadds.content?_eq ▸ hopen.no_file place hplace
  · exact makeDirectories_of_isOpen htree hnul

end Disk

end Debundle
