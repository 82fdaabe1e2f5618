import Debundle.Disk.ModuleFile
import Debundle.Proofs.Disk.Path
import Debundle.Proofs.Disk.Store

/-!
# What a write may touch

The path of a module is judged by where it leads in the end, and the directories on the way
are made as the path is written.  So a file is changed only where the path leads, which is
inside the output directory.  A path that goes out of it and comes back makes the
directories that it passes outside, if they are not there.
-/

namespace Debundle

namespace Path

variable {path : Path} {current place : Location}

theorem mem_waypoints_iff :
    place ∈ path.waypoints current ↔
      ∃ count ≤ path.steps.length,
        (path.steps.take count).foldl follow (path.start current) = place := by
  simp [waypoints]

theorem resolve_mem_waypoints (path : Path) (current : Location) :
    path.resolve current ∈ path.waypoints current :=
  mem_waypoints_iff.2 ⟨_, le_rfl, by rw [List.take_length, resolve]⟩

theorem waypoints_parent_subset (path : Path) (current : Location) :
    path.parent.waypoints current ⊆ path.waypoints current := by
  intro place hplace
  obtain ⟨count, hcount, rfl⟩ := mem_waypoints_iff.1 hplace
  rw [parent, List.length_dropLast] at hcount
  refine mem_waypoints_iff.2 ⟨count, by omega, ?_⟩
  rw [parent, List.dropLast_eq_take, List.take_take, Nat.min_eq_left hcount]
  rfl

/-- Where a path leads is one step from where its parent leads. -/
theorem resolve_eq_follow {last : String} (hlast : path.steps.getLast? = some last)
    (current : Location) : path.resolve current = follow (path.parent.resolve current) last := by
  obtain ⟨front, hsteps⟩ := List.getLast?_eq_some_iff.1 hlast
  rw [resolve, resolve, parent, hsteps, List.foldl_concat, List.dropLast_concat]
  rfl

theorem foldl_follow_of_parentStep_not_mem {steps : List String} (hsteps : parentStep ∉ steps)
    (location : Location) : steps.foldl follow location = location ++ steps := by
  induction steps generalizing location with
  | nil => rw [List.foldl_nil, List.append_nil]
  | cons step steps ih =>
    rw [List.mem_cons, not_or] at hsteps
    rw [List.foldl_cons, follow, if_neg (Ne.symm hsteps.1), ih hsteps.2, List.append_assoc,
      List.singleton_append]

/-- A path without steps up leads down all the way. -/
theorem waypoint_isPrefix (hsteps : parentStep ∉ path.steps)
    (hplace : place ∈ path.waypoints current) : place <+: path.resolve current := by
  obtain ⟨count, -, rfl⟩ := mem_waypoints_iff.1 hplace
  rw [resolve, foldl_follow_of_parentStep_not_mem hsteps,
    foldl_follow_of_parentStep_not_mem fun hmem => hsteps (List.mem_of_mem_take hmem)]
  exact (List.prefix_append_right_inj _).2 (List.take_prefix count path.steps)

end Path

namespace Store

variable {store before between after : Store} {path : Path} {place : Location}

/-- Nothing changes but that directories are made on the way of a path. -/
structure AddsAlong (path : Path) (before after : Store) : Prop where
  current_eq : after.current = before.current
  added : ∀ place, after.entry? place ≠ before.entry? place →
    place ∈ path.waypoints before.current ∧ before.entry? place = none ∧
      after.entry? place = some .directory

namespace AddsAlong

instance : Std.Refl (AddsAlong path) :=
  ⟨fun _ => ⟨rfl, fun _ hchanged => absurd rfl hchanged⟩⟩

instance : IsTrans Store (AddsAlong path) := by
  refine ⟨fun before between after hfirst hsecond => ?_⟩
  refine ⟨hsecond.current_eq.trans hfirst.current_eq, fun place hchanged => ?_⟩
  by_cases hlater : after.entry? place = between.entry? place
  · rw [hlater] at hchanged ⊢
    exact hfirst.added place hchanged
  · obtain ⟨hmem, hnone, hdirectory⟩ := hsecond.added place hlater
    rw [hfirst.current_eq] at hmem
    by_cases hearlier : between.entry? place = before.entry? place
    · exact ⟨hmem, hearlier ▸ hnone, hdirectory⟩
    · cases hnone.symm.trans (hfirst.added place hearlier).2.2

theorem of_parent (hadds : AddsAlong path.parent before after) : AddsAlong path before after := by
  refine ⟨hadds.current_eq, fun place hchanged => ?_⟩
  obtain ⟨hmem, hentries⟩ := hadds.added place hchanged
  exact ⟨path.waypoints_parent_subset _ hmem, hentries⟩

end AddsAlong

theorem addsAlong_put (hmem : place ∈ path.waypoints store.current)
    (hnone : store.entry? place = none) : AddsAlong path store (store.put place .directory) := by
  have hne : place ≠ [] := ne_nil_of_not_directory fun hentry => by cases hnone.symm.trans hentry
  refine ⟨rfl, fun other hchanged => ?_⟩
  rw [entry?_put hne] at hchanged ⊢
  by_cases hother : other = place
  · subst hother
    exact ⟨hmem, hnone, if_pos rfl⟩
  · rw [if_neg hother] at hchanged
    exact absurd rfl hchanged

variable {location : Location} {steps : List String} {entry : Entry}

/-- Every place that a path passes before its end has to be a directory. -/
theorem directory_of_walk {count : Nat} (hwalk : store.walk location steps = .ok place)
    (hcount : count < steps.length) :
    store.entry? ((steps.take count).foldl Path.follow location) = some .directory := by
  induction steps generalizing location count with
  | nil => cases hcount
  | cons step steps ih =>
    obtain ⟨between, hstep, hrest⟩ := walk_cons_eq_ok_iff.1 hwalk
    obtain ⟨hdirectory, -, rfl⟩ := stepFrom_eq_ok_iff.1 hstep
    cases count with
    | zero => exact hdirectory
    | succ count => exact ih hrest (Nat.lt_of_succ_lt_succ hcount)

theorem admits_of_walk (hwalk : store.walk location steps = .ok place) :
    ∀ step ∈ steps, admits step = true := by
  induction steps generalizing location with
  | nil => exact List.forall_mem_nil _
  | cons step steps ih =>
    obtain ⟨between, hstep, hrest⟩ := walk_cons_eq_ok_iff.1 hwalk
    exact List.forall_mem_cons.2 ⟨(stepFrom_eq_ok_iff.1 hstep).2.1, ih hrest⟩

theorem directory_of_locate (hlocate : store.locate path = .ok place) {waypoint : Location}
    (hmem : waypoint ∈ path.parent.waypoints store.current) (hne : waypoint ≠ place) :
    store.entry? waypoint = some .directory := by
  obtain ⟨count, hcount, hwaypoint⟩ :=
    Path.mem_waypoints_iff.1 (path.waypoints_parent_subset _ hmem)
  subst hwaypoint
  have hbefore : count ≠ path.steps.length := by
    rintro rfl
    rw [List.take_length] at hne
    exact hne (locate_eq_resolve hlocate).symm
  exact directory_of_walk hlocate (Nat.lt_of_le_of_ne hcount hbefore)

theorem AddsAlong.entry?_of_none (hadds : AddsAlong path before after)
    (hnone : after.entry? place = none) : before.entry? place = none := by
  by_contra hsome
  have hchanged : after.entry? place ≠ before.entry? place := fun hsame =>
    hsome (hsame.symm.trans hnone)
  exact hsome (hadds.added place hchanged).2.1

/-- Content without an encoding has left an empty file beside what a path leads to. -/
def LeftBeside (path : Path) (content : Content) (before after : Store) (place : Location) :
    Prop :=
  content.isText = false ∧ before.entry? place = none ∧
    after.entry? place = some (.file .empty) ∧
    ∃ number, place = path.parent.resolve before.current ++ [Disk.stagingName path.name number]

/-- Nothing changes but what a path leads to, and that directories are made on the way.
Content without an encoding leaves one more file. -/
structure Touches (path : Path) (content : Content) (before after : Store) : Prop where
  current_eq : after.current = before.current
  touched : ∀ place, after.entry? place ≠ before.entry? place →
    place = path.resolve before.current ∨
    (place ∈ path.parent.waypoints before.current ∧ before.entry? place = none ∧
      after.entry? place = some .directory) ∨
    LeftBeside path content before after place

theorem LeftBeside.of_addsAlong {content : Content} {other : Path}
    (hadds : AddsAlong other before between) (hleft : LeftBeside path content between after place) :
    LeftBeside path content before after place := by
  obtain ⟨htext, hnone, hthere, hbeside⟩ := hleft
  rw [hadds.current_eq] at hbeside
  exact ⟨htext, hadds.entry?_of_none hnone, hthere, hbeside⟩

theorem AddsAlong.touches {content : Content} (hadds : AddsAlong path.parent before between)
    (hcurrent : after.current = between.current)
    (hlast : ∀ place, after.entry? place ≠ between.entry? place →
      place = path.resolve between.current ∨ LeftBeside path content between after place) :
    Touches path content before after := by
  refine ⟨hcurrent.trans hadds.current_eq, fun place hchanged => ?_⟩
  by_cases hlater : after.entry? place = between.entry? place
  · rw [hlater] at hchanged ⊢
    exact .inr (.inl (hadds.added place hchanged))
  · exact (hlast place hlater).imp (fun hend => hadds.current_eq ▸ hend) fun hleft =>
      .inr (hleft.of_addsAlong hadds)

theorem entry?_erase_put (hne : place ≠ []) (hnone : store.entry? place = none) (other : Location) :
    entry? ((store.put place entry).erase place) other = store.entry? other := by
  rw [entry?_erase hne, entry?_put hne]
  by_cases hother : other = place
  · rw [if_pos hother, hother, hnone]
  · rw [if_neg hother, if_neg hother]

/-- A staged file that has moved leaves its place as it was before. -/
theorem entry?_move_put {target other : Location} (hne : place ≠ [])
    (hnone : store.entry? place = none) (htarget : target ≠ []) (hother : other ≠ target) :
    entry? ((store.put place entry).move place target) other = store.entry? other := by
  have hput : entry? (store.put place entry) place = some entry := by
    rw [entry?_put hne, if_pos rfl]
  rw [entry?_move hne htarget hput, if_neg hother, entry?_put hne]
  by_cases hplace : other = place
  · rw [if_pos hplace, hplace, hnone]
  · rw [if_neg hplace, if_neg hplace]

theorem current_move (store : Store) (source target : Location) :
    (store.move source target).current = store.current := by
  rw [move]
  cases store.entry? source <;> rfl

end Store

namespace Disk

open Procedure

variable {store after : Store} {path : Path}

theorem makeDirectory_addsAlong (path : Path) :
    Respects (Store.AddsAlong path) (makeDirectory path) := by
  refine makeDirectory_respects fun store place hplace => ?_
  obtain ⟨-, -, hlocate, hnone⟩ := Store.directoryPlace_eq_ok_iff.1 hplace
  refine Store.addsAlong_put ?_ hnone
  rw [Store.locate_eq_resolve hlocate]
  exact path.resolve_mem_waypoints store.current

theorem makeDirectories_addsAlong (path : Path) :
    Respects (Store.AddsAlong path) (makeDirectories path) :=
  makeDirectories_respects makeDirectory_addsAlong (fun _ _ _ => Store.AddsAlong.of_parent) path

theorem IsStaging.leftBeside_put {content : Content} {staged : Location}
    (hstaged : IsStaging path store staged) (htext : content.isText = false) :
    Store.LeftBeside path content store (store.put staged (.file .empty)) staged :=
  ⟨htext, hstaged.free, by rw [Store.entry?_put hstaged.ne_nil, if_pos rfl], hstaged.beside⟩

/-- A file is replaced by touching nothing else than what its path leads to and past. -/
theorem ReplaceEnding.touches {content : Content} {ending : Except DiskFault Unit}
    (hending : ReplaceEnding path content store ending after) :
    Store.Touches path content store after := by
  have hadds := makeDirectories_addsAlong path.parent store
  cases hending with
  | blocked hmade | unstaged hmade =>
    rw [hmade] at hadds
    exact hadds.touches rfl fun place hchanged => absurd rfl hchanged
  | @unencoded between staged hmade hstaged htext =>
    rw [hmade] at hadds
    refine hadds.touches rfl fun place hchanged => .inr ?_
    obtain rfl : place = staged := by
      by_contra hother
      rw [Store.entry?_put hstaged.ne_nil, if_neg hother] at hchanged
      exact hchanged rfl
    exact hstaged.leftBeside_put htext
  | undone hmade hstaged =>
    rw [hmade] at hadds
    refine hadds.touches rfl fun place hchanged => absurd ?_ hchanged
    exact Store.entry?_erase_put hstaged.ne_nil hstaged.free place
  | replaced hmade hstaged _ hlocate hplace =>
    rw [hmade] at hadds
    refine hadds.touches (Store.current_move _ _ _) fun place hchanged => .inl ?_
    by_contra hother
    refine hchanged (Store.entry?_move_put hstaged.ne_nil hstaged.free ?_ ?_)
    · exact Store.ne_nil_of_not_directory hplace
    · rw [Store.locate_eq_resolve hlocate]
      exact hother

end Disk

/-- A place that lies in a directory, or is one of the directories above it. -/
def Location.IsConfined (home place : Location) : Prop :=
  home <+: place ∨ place <+: home

instance (home place : Location) : Decidable (home.IsConfined place) :=
  inferInstanceAs (Decidable (home <+: place ∨ place <+: home))

variable {directory : Path} {name : Value} {content : Content} {store after : Store} {path : Path}
  {current : Location}

theorem Path.isInside_iff :
    path.isInside directory current = true ↔
      path.holdsNul = false ∧ directory.holdsNul = false ∧
        directory.resolve current <+: path.resolve current := by
  simp [isInside, and_assoc]

open Procedure

/-- How a write ends, and the store that it leaves. -/
inductive WriteEnding (directory : Path) (name : Value) (content : Content) (store : Store) :
    Except DiskFault WriteResult → Store → Prop where
  /-- The path leads out of the output directory, and nothing is tried. -/
  | escapes :
      ¬ (modulePath directory name).isInside directory store.current = true →
      WriteEnding directory name content store
        (.ok { name, path := modulePath directory name, fault? := some .escapes }) store
  | done {after : Store} :
      (modulePath directory name).isInside directory store.current = true →
      Disk.ReplaceEnding (modulePath directory name) content store (.ok ()) after →
      WriteEnding directory name content store
        (.ok { name, path := modulePath directory name }) after
  | refused {fault : DiskFault} {after : Store} :
      (modulePath directory name).isInside directory store.current = true →
      Disk.ReplaceEnding (modulePath directory name) content store (.error fault) after →
      fault.isRefusal = true →
      WriteEnding directory name content store
        (.ok { name, path := modulePath directory name, fault? := some (.refused fault) }) after
  /-- A fault that is no refusal is not caught. -/
  | raised {fault : DiskFault} {after : Store} :
      (modulePath directory name).isInside directory store.current = true →
      Disk.ReplaceEnding (modulePath directory name) content store (.error fault) after →
      fault.isRefusal = false →
      WriteEnding directory name content store (.error fault) after

theorem writeModule_ending (directory : Path) (name : Value) (content : Content)
    (store : Store) :
    ∃ ending after, outcome (writeModule directory name content) store = (ending, after) ∧
      WriteEnding directory name content store ending after := by
  by_cases hinside : (modulePath directory name).isInside directory store.current = true
  · obtain ⟨last, after, hreplace, hlast⟩ :=
      Disk.replaceFile_ending (modulePath directory name) content store
    cases last with
    | ok _ =>
      refine ⟨_, _, ?_, .done hinside hlast⟩
      rw [writeModule, outcome_get_bind, if_pos hinside]
      refine outcome_tryCatch_of_ok ?_
      rw [outcome_bind_of_ok hreplace, outcome_pure]
    | error fault =>
      have hhandled : outcome (writeModule directory name content) store =
          outcome (if fault.isRefusal then
            pure { name, path := modulePath directory name, fault? := some (.refused fault) }
            else throw fault : Disk WriteResult) after := by
        rw [writeModule, outcome_get_bind, if_pos hinside]
        exact outcome_tryCatch_of_error (outcome_bind_of_error hreplace)
      cases hrefusal : fault.isRefusal with
      | true =>
        refine ⟨_, _, hhandled.trans ?_, .refused hinside hlast hrefusal⟩
        rw [if_pos hrefusal, outcome_pure]
      | false =>
        refine ⟨_, _, hhandled.trans ?_, .raised hinside hlast hrefusal⟩
        rw [hrefusal, if_neg Bool.false_ne_true, outcome_throw]
  · refine ⟨_, _, ?_, .escapes hinside⟩
    rw [writeModule, outcome_get_bind, if_neg hinside, outcome_pure]

/-- Unless the path leads out of the output directory, the replacement of a file is tried. -/
theorem WriteEnding.exists_replaceEnding {ending : Except DiskFault WriteResult}
    (hending : WriteEnding directory name content store ending after)
    (hinside : (modulePath directory name).isInside directory store.current = true) :
    ∃ last, Disk.ReplaceEnding (modulePath directory name) content store last after ∧
      ((∃ write, ending = .ok write ∧ write.isSuccess = true) ↔ last = .ok ()) ∧
      ((∃ fault, ending = .error fault) ↔
        ∃ fault, last = .error fault ∧ fault.isRefusal = false) := by
  cases hending with
  | escapes hescapes => exact absurd hinside hescapes
  | done _ hlast => exact ⟨_, hlast, by simp [WriteResult.isSuccess], by simp⟩
  | refused _ hlast hrefusal =>
    exact ⟨_, hlast, by simp [WriteResult.isSuccess], by simp [hrefusal]⟩
  | raised _ hlast hrefusal => exact ⟨_, hlast, by simp, by simp [hrefusal]⟩

theorem WriteEnding.touches {ending : Except DiskFault WriteResult}
    (hending : WriteEnding directory name content store ending after) :
    Store.Touches (modulePath directory name) content store after := by
  cases hending with
  | escapes => exact ⟨rfl, fun place hchanged => absurd rfl hchanged⟩
  | done _ hlast | refused _ hlast | raised _ hlast => exact hlast.touches

/-- A staged file lies where its path leads, or beside the output directory if the path leads
to that directory itself. -/
theorem isPrefix_staged (step : String)
    (hinside : directory.resolve current <+: path.resolve current) :
    directory.resolve current <+: path.parent.resolve current ++ [step] ∨
      path.resolve current = directory.resolve current := by
  have hparent : directory.resolve current <+: path.parent.resolve current ∨
      path.resolve current = directory.resolve current := by
    cases hlast : path.steps.getLast? with
    | none =>
      have hsteps := List.getLast?_eq_none_iff.1 hlast
      have hsame : path.parent = path := by
        rw [Path.parent, hsteps]
        exact congrArg (Path.mk path.root) hsteps.symm
      exact .inl (hsame.symm ▸ hinside)
    | some last =>
      rw [Path.resolve_eq_follow hlast, Path.follow] at hinside ⊢
      split_ifs at hinside ⊢
      · exact .inl (hinside.trans (List.dropLast_prefix _))
      · exact (List.prefix_concat_iff.1 hinside).symm.imp_right Eq.symm
  exact hparent.imp_left fun hprefix => hprefix.trans (List.prefix_append _ _)

/-- The content of a module is staged in the output directory, unless the path of the module
leads to that directory itself. -/
theorem stage_isConfined {between last : Store} {staged : Location}
    (hinside : directory.resolve store.current <+: path.resolve store.current)
    (hmade : outcome (Disk.makeDirectories path.parent) store = (.ok (), between))
    (hstage : outcome (Disk.stage path content) between = (.ok staged, last)) :
    directory.resolve store.current <+: staged ∨
      path.resolve store.current = directory.resolve store.current := by
  have hcurrent := ((Disk.makeDirectories_addsAlong _).of_outcome hmade).current_eq
  obtain ⟨fault, -, -, hfault⟩ | ⟨place, hplace, ⟨-, hok⟩ | ⟨-, hfault⟩⟩ :=
    Disk.stage_cases path content between
  · cases hfault.symm.trans hstage
  · cases hok.symm.trans hstage
    obtain ⟨number, hstep⟩ := hplace.beside
    rw [hstep, hcurrent]
    exact isPrefix_staged _ hinside
  · cases hfault.symm.trans hstage

/-- A place that changes is confined if those are that the path passes, or it holds what was
left beside the output directory. -/
theorem Store.Touches.isConfined {place : Location}
    (htouches : Store.Touches path content store after)
    (hhome : directory.resolve store.current <+: path.resolve store.current)
    (hwaypoints : ∀ place ∈ path.parent.waypoints store.current,
      (directory.resolve store.current).IsConfined place ∨ store.entry? place ≠ none)
    (hchanged : after.entry? place ≠ store.entry? place) :
    (directory.resolve store.current).IsConfined place ∨
      Store.LeftBeside path content store after place ∧
        path.resolve store.current = directory.resolve store.current := by
  obtain rfl | ⟨hmem, hnone, -⟩ | hleft := htouches.touched place hchanged
  · exact .inl (.inl hhome)
  · exact .inl ((hwaypoints place hmem).resolve_right fun hsome => hsome hnone)
  · obtain ⟨number, hplace⟩ := hleft.2.2.2
    refine (isPrefix_staged (Disk.stagingName path.name number) hhome).imp ?_ fun hend =>
      ⟨hleft, hend⟩
    rw [← hplace]
    exact .inl

/-- A write changes files only inside the output directory.  Outside of it nothing is changed
or removed, and only directories are made that the path of the module passes and that are
missing.  A successful write is confined to the output directory and the directories above it
exactly if all other places that the path passes are there already; a path without steps up
passes no other places.  The content is staged in the output directory, unless the path leads
to that directory itself; only then content without an encoding leaves a file outside. -/
theorem writeModule_touches (directory : Path) (name : Value) (content : Content)
    (store : Store) :
    ∃ ending after, outcome (writeModule directory name content) store = (ending, after) ∧
      (¬ (modulePath directory name).isInside directory store.current = true →
        (∃ write, ending = .ok write ∧ write.fault? = some .escapes) ∧ after = store) ∧
      (∀ place, after.entry? place ≠ store.entry? place →
        directory.resolve store.current <+: place ∨
        (place ∈ (modulePath directory name).parent.waypoints store.current ∧
          store.entry? place = none ∧ after.entry? place = some .directory) ∨
        Store.LeftBeside (modulePath directory name) content store after place ∧
          (modulePath directory name).resolve store.current =
            directory.resolve store.current) ∧
      (∀ write, ending = .ok write → write.isSuccess = true →
        ((∀ place, after.entry? place ≠ store.entry? place →
            (directory.resolve store.current).IsConfined place) ↔
          ∀ place ∈ (modulePath directory name).parent.waypoints store.current,
            (directory.resolve store.current).IsConfined place ∨ store.entry? place ≠ none)) ∧
      (Path.parentStep ∉ (modulePath directory name).steps →
        ∀ place, after.entry? place ≠ store.entry? place →
          (directory.resolve store.current).IsConfined place ∨
          Store.LeftBeside (modulePath directory name) content store after place ∧
            (modulePath directory name).resolve store.current =
              directory.resolve store.current) ∧
      (∀ between staged last,
        (modulePath directory name).isInside directory store.current = true →
        outcome (Disk.makeDirectories (modulePath directory name).parent) store =
          (.ok (), between) →
        outcome (Disk.stage (modulePath directory name) content) between = (.ok staged, last) →
        directory.resolve store.current <+: staged ∨
          (modulePath directory name).resolve store.current =
            directory.resolve store.current) := by
  obtain ⟨ending, after, hrun, hending⟩ := writeModule_ending directory name content store
  refine ⟨ending, after, hrun, ?_⟩
  by_cases hinside : (modulePath directory name).isInside directory store.current = true
  · obtain ⟨-, -, hhome⟩ := Path.isInside_iff.1 hinside
    obtain ⟨last, hlast, hsuccess, -⟩ := hending.exists_replaceEnding hinside
    have htouches := hending.touches
    refine ⟨fun hescapes => absurd hinside hescapes, fun place hchanged => ?_,
      fun write hwrite hdone => ⟨fun hconfined place hmem => ?_,
        fun hwaypoints place hchanged => ?_⟩,
      fun hsteps place hchanged => ?_, fun _ _ _ _ => stage_isConfined hhome⟩
    · obtain rfl | hmade | hleft := htouches.touched place hchanged
      · exact .inl hhome
      · exact .inr (.inl hmade)
      · obtain ⟨number, hplace⟩ := hleft.2.2.2
        rw [hplace]
        rw [hplace] at hleft
        exact (isPrefix_staged _ hhome).imp_right fun hend => .inr ⟨hleft, hend⟩
    · by_cases hend : place = (modulePath directory name).resolve store.current
      · rw [hend]
        exact .inl (.inl hhome)
      -- The path has led past this place, so that a directory is there now.
      cases hsuccess.1 ⟨write, hwrite, hdone⟩
      have hlocate := hlast.replaced_of_ok.2.locate_eq
      rw [← htouches.current_eq] at hmem
      have hdirectory := Store.directory_of_locate hlocate hmem hend
      by_cases hnone : store.entry? place = none
      · refine .inl (hconfined place ?_)
        rw [hdirectory, hnone]
        exact Option.some_ne_none _
      · exact .inr hnone
    · cases hsuccess.1 ⟨write, hwrite, hdone⟩
      refine (htouches.isConfined hhome hwaypoints hchanged).resolve_right fun hleft => ?_
      cases hlast.replaced_of_ok.1.symm.trans hleft.1.1
    · refine htouches.isConfined hhome (fun waypoint hmem => .inl ?_) hchanged
      have hdown := Path.waypoint_isPrefix hsteps (Path.waypoints_parent_subset _ _ hmem)
      exact List.prefix_or_prefix_of_prefix hhome hdown
  · cases hending with
    | escapes =>
      refine ⟨fun _ => ⟨⟨_, rfl, rfl⟩, rfl⟩, fun place hchanged => absurd rfl hchanged, ?_,
        fun _ place hchanged => absurd rfl hchanged, fun _ _ _ hnot => absurd hnot hinside⟩
      rintro _ ⟨⟩ hsuccess
      cases hsuccess
    | done hnot | refused hnot | raised hnot => exact absurd hnot hinside

/-- The path `out/../x/../out/y.js` leads into the output directory, and a directory is made
beside it. -/
theorem writeModule_makes_directory_outside :
    ∃ write after,
      outcome (writeModule (Path.ofText "out") (.text "../x/../out/y") (.ofText "1"))
        { current := [], entries := [(["out"], .directory)] } = (.ok write, after) ∧
      write.isSuccess = true ∧ after.entry? ["x"] = some .directory ∧
      ¬ ((Path.ofText "out").resolve []).IsConfined ["x"] := by
  refine ⟨_, _, rfl, ?_, ?_, ?_⟩
  · decide +kernel
  · decide +kernel
  · decide +kernel

end Debundle
