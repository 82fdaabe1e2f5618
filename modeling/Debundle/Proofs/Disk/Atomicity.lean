import Debundle.Proofs.Disk.Directories

/-!
# A write is done or undone

A module is staged beside its file and moved there in one step.  A write that fails, at
whatever step, leaves every file as it was, and one that succeeds changes the file of the
module only.  The staged file is gone in either case.  Content without an encoding is neither:
the write is given up with a fault, and the staged file stays, empty.
-/

namespace Debundle

open Procedure

namespace Path

/-- The last piece of a text ends as the text does. -/
theorem exists_pieces_append {ending : List Char} (hending : '/' ∉ ending) (chars : List Char) :
    ∃ front last, pieces (chars ++ ending) = front ++ [last ++ ending] := by
  induction chars with
  | nil => exact ⟨[], [], pieces_of_slash_not_mem hending⟩
  | cons char rest ih =>
    obtain ⟨front, last, hrest⟩ := ih
    rw [List.cons_append]
    by_cases hchar : char = '/'
    · rw [hchar, pieces_slash, hrest]
      exact ⟨[] :: front, last, rfl⟩
    · obtain ⟨first, others, hpieces, hcons⟩ := pieces_cons hchar (rest ++ ending)
      rw [hcons]
      cases front with
      | nil =>
        cases hpieces.symm.trans hrest
        exact ⟨[], char :: last, rfl⟩
      | cons piece front =>
        cases hpieces.symm.trans hrest
        exact ⟨(char :: first) :: front, last, rfl⟩

theorem exists_steps_ofText (text : String) :
    ∃ front stem, (ofText (text ++ ".js")).steps = front ++ [stem ++ ".js"] := by
  obtain ⟨front, last, hpieces⟩ :=
    exists_pieces_append (show '/' ∉ ".js".toList by decide) text.toList
  refine ⟨(front.filter fun piece => piece != [] && piece != ['.']).map String.ofList,
    String.ofList last, ?_⟩
  have hlong : ∀ short, short.length < 3 → last ++ ".js".toList ≠ short := by
    rintro short hshort rfl
    rw [List.length_append] at hshort
    exact absurd hshort (by simp)
  have hkept : (last ++ ".js".toList != [] && last ++ ".js".toList != ['.']) = true := by
    simp only [Bool.and_eq_true, bne_iff_ne]
    exact ⟨hlong [] (by decide), hlong ['.'] (by decide)⟩
  rw [ofText, String.toList_append, hpieces]
  simp only [List.filter_append, List.filter_singleton, hkept, cond_true, List.map_append,
    List.map_singleton, String.ofList_append, String.ofList_toList]

/-- A staged file never lies where the path leads: its name is longer. -/
theorem staged_ne_resolve (path : Path) (current : Location) (number : Nat) :
    path.parent.resolve current ++ [Disk.stagingName path.name number] ≠ path.resolve current := by
  intro hsame
  have hlength := congrArg List.length hsame
  rw [List.length_append, List.length_singleton] at hlength
  cases hlast : path.steps.getLast? with
  | none =>
    have hsteps := List.getLast?_eq_none_iff.1 hlast
    simp [resolve, parent, start, hsteps] at hlength
  | some last =>
    have hname : path.name = last := by rw [name, hlast, Option.getD_some]
    rw [resolve_eq_follow hlast, follow] at hsame hlength
    split_ifs at hsame hlength
    · rw [List.length_dropLast] at hlength
      omega
    · have hnames := List.singleton_inj.1 (List.append_cancel_left hsame)
      rw [hname] at hnames
      have hsizes := congrArg String.length hnames
      simp only [Disk.stagingName, String.length_append] at hsizes
      have hpoint : ".".length = 1 := rfl
      omega

end Path

theorem exists_steps_modulePath (directory : Path) (name : Value) :
    ∃ front stem, (modulePath directory name).steps = front ++ [stem ++ ".js"] := by
  obtain ⟨front, stem, hsteps⟩ := Path.exists_steps_ofText name.display
  rw [modulePath, Path.join]
  split
  · exact ⟨directory.steps ++ front, stem, by rw [hsteps, List.append_assoc]⟩
  · exact ⟨front, stem, hsteps⟩

theorem name_modulePath_ne_parentStep (directory : Path) (name : Value) :
    (modulePath directory name).name ≠ Path.parentStep := by
  obtain ⟨front, stem, hsteps⟩ := exists_steps_modulePath directory name
  rw [Path.name, hsteps, List.getLast?_concat, Option.getD_some]
  intro hsame
  have hlength := congrArg String.length hsame
  rw [String.length_append] at hlength
  have hjs : ".js".length = 3 := rfl
  have hup : Path.parentStep.length = 2 := rfl
  omega

namespace Store

variable {store before after : Store} {path : Path} {place : Location} {content : Content}

theorem content?_put {bytes : ByteArray} (hplace : place ≠ []) :
    content? (store.put place (.file bytes)) =
      Function.update store.content? place (some bytes) := by
  funext other
  rw [content?, entry?_put hplace, Function.update_apply]
  split_ifs
  · rfl
  · rfl

/-- Where a path does not lead, no file changes unless one is left. -/
theorem Touches.content?_eq (htouches : Touches path content before after)
    (htext : content.isText = true) (hplace : place ≠ path.resolve before.current) :
    after.content? place = before.content? place := by
  by_cases hsame : after.entry? place = before.entry? place
  · rw [content?, hsame, content?]
  · obtain hend | ⟨-, hnone, hdirectory⟩ | hleft := htouches.touched place hsame
    · exact absurd hend hplace
    · rw [content?_of_free hnone, content?_of_directory hdirectory]
    · cases htext.symm.trans hleft.1

/-- Content for a path can be staged: its directories can be made, and its name is short
enough. -/
structure Stages (store : Store) (path : Path) : Prop where
  isOpen : store.IsOpen path.parent
  fits : path.name.utf8ByteSize + Disk.stagingOverhead ≤ nameLimit

/-- A path leads neither to a directory nor to one that is made on its way. -/
structure TakesFile (store : Store) (path : Path) : Prop where
  ne_directory : store.entry? (path.resolve store.current) ≠ some .directory
  not_mem : path.resolve store.current ∉ path.parent.waypoints store.current

end Store

namespace Disk

open Store

variable {store between last after : Store} {path : Path} {content : Content} {staged : Location}
  {fault : DiskFault} {ending : Except DiskFault Unit}

/-- The place of the staged file is free before and after. -/
theorem entry?_staged (hmade : outcome (makeDirectories path.parent) store = (.ok (), between))
    (hstage : outcome (stage path content) between = (.ok staged, last))
    (htouches : Touches path content store after) :
    store.entry? staged = none ∧ last.content? staged = some content.text.toUTF8 ∧
      after.entry? staged = none := by
  obtain ⟨fault, -, -, hfault⟩ | ⟨place, hplace, ⟨htext, hrun⟩ | ⟨-, hfault⟩⟩ :=
    stage_cases path content between
  · cases hfault.symm.trans hstage
  · cases hrun.symm.trans hstage
    have hadds := (makeDirectories_addsAlong _).of_outcome hmade
    have hfree := hadds.entry?_of_none hplace.free
    refine ⟨hfree, by rw [content?_put hplace.ne_nil, Function.update_self], ?_⟩
    by_contra hthere
    obtain hend | ⟨hmem, -⟩ | hleft :=
      htouches.touched staged fun hsame => hthere (hsame.trans hfree)
    · obtain ⟨number, hbeside⟩ := hplace.beside
      rw [hadds.current_eq] at hbeside
      exact path.staged_ne_resolve store.current number (hbeside.symm.trans hend)
    · -- All directories on the way have been made, and there is none here.
      rw [← hadds.current_eq] at hmem
      cases hplace.free.symm.trans
        (directory_of_isDirectory (isDirectory_of_makeDirectories hmade) hmem)
    · cases htext.symm.trans hleft.1
  · cases hfault.symm.trans hstage

namespace ReplaceEnding

/-- Content that is put in the place of a file changes no other file. -/
theorem content?_of_ok (hending : ReplaceEnding path content store (.ok ()) after) :
    after.content? =
      Function.update store.content? (path.resolve store.current) (some content.text.toUTF8) := by
  obtain ⟨htext, hreplaced⟩ := hending.replaced_of_ok
  funext place
  by_cases hplace : place = path.resolve store.current
  · rw [hplace, Function.update_self, content?_of_file hreplaced.entry?_eq]
  · rw [Function.update_of_ne hplace, hending.touches.content?_eq htext hplace]

/-- A refusal leaves every file as it was. -/
theorem content?_of_refusal (hending : ReplaceEnding path content store (.error fault) after)
    (hrefusal : fault.isRefusal = true) : after.content? = store.content? := by
  cases hending with
  | blocked hmade | unstaged hmade =>
    exact ((makeDirectories_addsAlong _).of_outcome hmade).content?_eq
  | unencoded => cases hrefusal
  | undone hmade hstaged =>
    rw [← ((makeDirectories_addsAlong _).of_outcome hmade).content?_eq]
    funext place
    rw [content?, entry?_erase_put hstaged.ne_nil hstaged.free, content?]

/-- Any other fault is that the content has no encoding, and an empty file is left. -/
theorem left_of_error (hending : ReplaceEnding path content store (.error fault) after)
    (hnul : path.holdsNul = false) (hrefusal : fault.isRefusal = false) :
    content.isText = false ∧ fault = .notEncoded content.fault ∧
      ∃ place, LeftBeside path content store after place ∧
        after.content? = Function.update store.content? place (some .empty) := by
  cases hending with
  | blocked hmade =>
    cases hrefusal.symm.trans (isRefusal_of_makeDirectories (Path.holdsNul_parent hnul) hmade)
  | unstaged _ hfault => cases hrefusal.symm.trans (hfault hnul)
  | undone _ _ _ hfault => cases hrefusal.symm.trans hfault
  | unencoded hmade hstaged htext =>
    have hadds := (makeDirectories_addsAlong _).of_outcome hmade
    refine ⟨htext, rfl, _, (hstaged.leftBeside_put htext).of_addsAlong hadds, ?_⟩
    rw [content?_put hstaged.ne_nil, hadds.content?_eq]

/-- A file in the way of the directories is in the way of the write. -/
theorem isRefusal_of_file (hending : ReplaceEnding path content store ending after)
    (hnul : path.holdsNul = false) {place : Location}
    (hmem : place ∈ path.parent.waypoints store.current) (hfile : store.content? place ≠ none) :
    ∃ fault, ending = .error fault ∧ fault.isRefusal = true := by
  cases hending with
  | blocked hmade => exact ⟨_, rfl, isRefusal_of_makeDirectories (Path.holdsNul_parent hnul) hmade⟩
  | unstaged hmade | unencoded hmade | undone hmade | replaced hmade =>
    -- The path has led past this place, so that it is a directory now.
    have hadds := (makeDirectories_addsAlong _).of_outcome hmade
    rw [← hadds.current_eq] at hmem
    have hthere := directory_of_isDirectory (isDirectory_of_makeDirectories hmade) hmem
    rw [← hadds.content?_eq, content?_of_directory hthere] at hfile
    exact absurd rfl hfile

end ReplaceEnding

/-- The directories are made and nothing keeps content from being staged. -/
theorem exists_made (hstages : store.Stages path) (hnul : path.holdsNul = false)
    (htree : store.IsTree) :
    ∃ between, outcome (makeDirectories path.parent) store = (.ok (), between) ∧
      ¬ (path.holdsNul = true ∨ nameLimit < path.name.utf8ByteSize + stagingOverhead ∨
        ∃ error, between.locate path.parent = .error error) := by
  obtain ⟨between, hmade⟩ :=
    makeDirectories_of_isOpen htree (Path.holdsNul_parent hnul) hstages.isOpen
  refine ⟨between, hmade, ?_⟩
  rintro (hnot | hlong | ⟨error, herror⟩)
  · cases hnul.symm.trans hnot
  · exact absurd hstages.fits (Nat.not_le.2 hlong)
  · obtain ⟨home, hhome, -⟩ := isDirectory_iff.1 (isDirectory_of_makeDirectories hmade)
    cases hhome.symm.trans herror

/-- What has been staged could be. -/
theorem stages_of_isStaging (hnul : path.holdsNul = false) (htree : store.IsTree)
    (hmade : outcome (makeDirectories path.parent) store = (.ok (), between))
    (hstaged : IsStaging path between staged) : store.Stages path where
  isOpen := (makeDirectories_eq_ok_iff htree (Path.holdsNul_parent hnul)).1 ⟨between, hmade⟩
  fits := hstaged.fits

/-- Once the directories are made, one is where a path leads if it was there or was made. -/
theorem takesFile_iff (hmade : outcome (makeDirectories path.parent) store = (.ok (), between)) :
    store.TakesFile path ↔ between.entry? (path.resolve store.current) ≠ some .directory := by
  have hadds := (makeDirectories_addsAlong _).of_outcome hmade
  have hextends := (makeDirectories_extends _).of_outcome hmade
  constructor
  · intro htakes hdirectory
    by_cases hsame : between.entry? (path.resolve store.current) =
        store.entry? (path.resolve store.current)
    · exact htakes.ne_directory (hsame ▸ hdirectory)
    · exact htakes.not_mem (hadds.added _ hsame).1
  · intro hnot
    refine ⟨fun hdirectory => hnot (hextends.entry?_eq trivial hdirectory), fun hmem => hnot ?_⟩
    rw [← hadds.current_eq] at hmem ⊢
    exact directory_of_isDirectory (isDirectory_of_makeDirectories hmade) hmem

/-- A staged file can be moved to where the path leads, and is not there yet. -/
theorem IsStaging.locate_put
    (hmade : outcome (makeDirectories path.parent) store = (.ok (), between))
    (hstaged : IsStaging path between staged) (entry : Entry) :
    Store.locate (between.put staged entry) path = .ok (path.resolve store.current) ∧
      Store.entry? (between.put staged entry) (path.resolve store.current) =
        between.entry? (path.resolve store.current) := by
  have hcurrent := ((makeDirectories_addsAlong _).of_outcome hmade).current_eq
  have hadmits : admits path.name = true := decide_eq_true (Nat.le_of_add_right_le hstaged.fits)
  obtain ⟨place, hplace⟩ := exists_locate hadmits (isDirectory_of_makeDirectories hmade)
  have hlocate := KeepsDirectories.locate_eq (@extends_put _ _ entry hstaged.free).keeps hplace
  rw [← hcurrent, ← locate_eq_resolve hplace]
  refine ⟨hlocate, ?_⟩
  rw [entry?_put hstaged.ne_nil, if_neg]
  obtain ⟨number, rfl⟩ := hstaged.beside
  rw [locate_eq_resolve hplace]
  exact (path.staged_ne_resolve between.current number).symm

namespace ReplaceEnding

/-- In a tree a file is replaced exactly if nothing stands in the way. -/
theorem eq_ok_iff (hending : ReplaceEnding path content store ending after)
    (htree : store.IsTree) (hnul : path.holdsNul = false) (hsteps : path.steps ≠ [])
    (hname : path.name ≠ Path.parentStep) :
    ending = .ok () ↔ store.Stages path ∧ store.TakesFile path ∧ content.isText = true := by
  constructor
  · rintro rfl
    cases hending with
    | replaced hmade hstaged htext hlocate hplace =>
      obtain ⟨hthere, hentry⟩ := hstaged.locate_put hmade (.file content.text.toUTF8)
      cases hlocate.symm.trans hthere
      rw [hentry] at hplace
      exact ⟨stages_of_isStaging hnul htree hmade hstaged, (takesFile_iff hmade).2 hplace, htext⟩
  · rintro ⟨hstages, htakes, htext⟩
    obtain ⟨made, hmakes, hfree⟩ := exists_made hstages hnul htree
    cases hending with
    | blocked hmade => cases hmakes.symm.trans hmade
    | unstaged hmade _ hblocks =>
      cases hmakes.symm.trans hmade
      exact absurd hblocks hfree
    | unencoded _ _ hnot => cases htext.symm.trans hnot
    | undone hmade hstaged _ _ hwhy =>
      obtain ⟨hthere, hentry⟩ := hstaged.locate_put hmade (.file content.text.toUTF8)
      obtain hnone | hup | hdirectory := hwhy
      · exact absurd hnone hsteps
      · exact absurd hup hname
      · exact absurd (hentry ▸ hdirectory _ hthere) ((takesFile_iff hmade).1 htakes)
    | replaced => rfl

/-- In a tree content without an encoding is found out exactly if it can be staged. -/
theorem raises_iff (hending : ReplaceEnding path content store ending after)
    (htree : store.IsTree) (hnul : path.holdsNul = false) :
    (∃ fault, ending = .error fault ∧ fault.isRefusal = false) ↔
      store.Stages path ∧ content.isText = false := by
  constructor
  · rintro ⟨fault, rfl, hfault⟩
    cases hending with
    | blocked hmade =>
      cases hfault.symm.trans (isRefusal_of_makeDirectories (Path.holdsNul_parent hnul) hmade)
    | unstaged _ hrefusal => cases hfault.symm.trans (hrefusal hnul)
    | undone _ _ _ hrefusal => cases hfault.symm.trans hrefusal
    | unencoded hmade hstaged htext => exact ⟨stages_of_isStaging hnul htree hmade hstaged, htext⟩
  · rintro ⟨hstages, htext⟩
    obtain ⟨made, hmakes, hfree⟩ := exists_made hstages hnul htree
    cases hending with
    | blocked hmade => cases hmakes.symm.trans hmade
    | unstaged hmade _ hblocks =>
      cases hmakes.symm.trans hmade
      exact absurd hblocks hfree
    | unencoded => exact ⟨_, rfl, rfl⟩
    | undone _ _ hnot | replaced _ _ hnot => cases htext.symm.trans hnot

end ReplaceEnding

end Disk

variable (directory : Path) (name : Value) (content : Content) (store : Store)

/-- A write that fails leaves every file as it was, and one that succeeds puts the content in
the file of the module and changes no other file.  It fails if the path leads out of the output
directory, or past a file, and does not succeed if it leads to a directory.  Where the content
was staged there is nothing before and nothing afterwards.  A write that raises a fault is
neither: the content has no encoding, and one file is left, empty, beside that of the module.
In a tree a write succeeds exactly if the content has an encoding and nothing stands in the way,
and raises a fault exactly if the content has none and nothing keeps it from being staged. -/
theorem writeModule_all_or_nothing :
    ∃ ending after, outcome (writeModule directory name content) store = (ending, after) ∧
      (∀ write, ending = .ok write → write.isSuccess = false →
        after.content? = store.content?) ∧
      (∀ write, ending = .ok write → write.isSuccess = true →
        content.isText = true ∧
        after.content? = Function.update store.content?
          ((modulePath directory name).resolve store.current) (some content.text.toUTF8) ∧
        after.look (modulePath directory name) = .ok (.file content.text.toUTF8)) ∧
      (∀ fault, ending = .error fault →
        content.isText = false ∧ fault = .notEncoded content.fault ∧
        ∃ place, Store.LeftBeside (modulePath directory name) content store after place ∧
          after.content? = Function.update store.content? place (some .empty)) ∧
      ((modulePath directory name).isInside directory store.current = false →
        ∃ write, ending = .ok write ∧ write.isSuccess = false) ∧
      (∀ place ∈ (modulePath directory name).parent.waypoints store.current,
        store.content? place ≠ none → ∃ write, ending = .ok write ∧ write.isSuccess = false) ∧
      (store.entry? ((modulePath directory name).resolve store.current) = some .directory →
        ∀ write, ending = .ok write → write.isSuccess = false) ∧
      (∀ between staged last,
        outcome (Disk.makeDirectories (modulePath directory name).parent) store =
          (.ok (), between) →
        outcome (Disk.stage (modulePath directory name) content) between = (.ok staged, last) →
        store.entry? staged = none ∧ last.content? staged = some content.text.toUTF8 ∧
          after.entry? staged = none) ∧
      (store.IsTree →
        ((∃ write, ending = .ok write ∧ write.isSuccess = true) ↔
          (modulePath directory name).isInside directory store.current = true ∧
          store.Stages (modulePath directory name) ∧
          store.TakesFile (modulePath directory name) ∧ content.isText = true) ∧
        ((∃ fault, ending = .error fault) ↔
          (modulePath directory name).isInside directory store.current = true ∧
          store.Stages (modulePath directory name) ∧ content.isText = false)) := by
  obtain ⟨ending, after, hrun, hending⟩ := writeModule_ending directory name content store
  have hsteps : (modulePath directory name).steps ≠ [] := by
    obtain ⟨front, stem, hsteps⟩ := exists_steps_modulePath directory name
    rw [hsteps]
    exact List.concat_ne_nil _ _
  have hname := name_modulePath_ne_parentStep directory name
  refine ⟨ending, after, hrun, ?_, ?_, ?_, fun hescapes => ?_, fun place hmem hfile => ?_, ?_,
    fun _ _ _ hmade hstage => Disk.entry?_staged hmade hstage hending.touches,
    fun htree => ⟨⟨?_, ?_⟩, ⟨?_, ?_⟩⟩⟩
  · rintro write rfl hfails
    cases hending with
    | escapes => rfl
    | done => cases hfails
    | refused _ hlast hrefusal => exact hlast.content?_of_refusal hrefusal
  · rintro write rfl hsuccess
    cases hending with
    | escapes | refused => cases hsuccess
    | done _ hlast =>
      obtain ⟨htext, hreplaced⟩ := hlast.replaced_of_ok
      exact ⟨htext, hlast.content?_of_ok,
        Store.look_of_locate hreplaced.locate_eq hreplaced.entry?_eq⟩
  · rintro fault rfl
    cases hending with
    | raised hinside hlast hrefusal =>
      exact hlast.left_of_error (Path.isInside_iff.1 hinside).1 hrefusal
  · cases hending with
    | escapes => exact ⟨_, rfl, rfl⟩
    | done hinside | refused hinside | raised hinside => cases hescapes.symm.trans hinside
  · cases hending with
    | escapes | refused => exact ⟨_, rfl, rfl⟩
    | done hinside hlast =>
      obtain ⟨fault, hfault, -⟩ :=
        hlast.isRefusal_of_file (Path.isInside_iff.1 hinside).1 hmem hfile
      cases hfault
    | raised hinside hlast hnot =>
      obtain ⟨fault, hfault, hrefusal⟩ :=
        hlast.isRefusal_of_file (Path.isInside_iff.1 hinside).1 hmem hfile
      cases hfault
      cases hnot.symm.trans hrefusal
  · rintro hdirectory write rfl
    cases hending with
    | escapes | refused => rfl
    | done _ hlast =>
      obtain ⟨-, hreplaced⟩ := hlast.replaced_of_ok
      cases hreplaced.entry?_eq.symm.trans (hreplaced.keepsBeside.entry?_eq (.inr rfl) hdirectory)
  · rintro ⟨write, rfl, hsuccess⟩
    cases hending with
    | escapes | refused => cases hsuccess
    | done hinside hlast =>
      have hnul := (Path.isInside_iff.1 hinside).1
      exact ⟨hinside, (hlast.eq_ok_iff htree hnul hsteps hname).1 rfl⟩
  · rintro ⟨hinside, hready⟩
    obtain ⟨last, hlast, hsuccess, -⟩ := hending.exists_replaceEnding hinside
    have hnul := (Path.isInside_iff.1 hinside).1
    exact hsuccess.2 ((hlast.eq_ok_iff htree hnul hsteps hname).2 hready)
  · rintro ⟨fault, rfl⟩
    cases hending with
    | raised hinside hlast hrefusal =>
      have hnul := (Path.isInside_iff.1 hinside).1
      exact ⟨hinside, (hlast.raises_iff htree hnul).1 ⟨fault, rfl, hrefusal⟩⟩
  · rintro ⟨hinside, hready⟩
    obtain ⟨last, hlast, -, hraises⟩ := hending.exists_replaceEnding hinside
    have hnul := (Path.isInside_iff.1 hinside).1
    exact hraises.2 ((hlast.raises_iff htree hnul).2 hready)

/-- Content without an encoding is not written, no result tells so, and the file that it was to
be staged in stays. -/
theorem writeModule_leaves_staged_file :
    ∃ after,
      outcome (writeModule (Path.ofText "out") (.text "a") [.surrogate 0])
        { current := [], entries := [(["out"], .directory)] } =
          (.error (.notEncoded (Content.fault [.surrogate 0])), after) ∧
      after.entry? ["out", "a.js"] = none ∧
      after.entry? ["out", ".a.js.00000000.part"] = some (.file .empty) := by
  refine ⟨_, rfl, ?_, ?_⟩
  · decide +kernel
  · decide +kernel

end Debundle
