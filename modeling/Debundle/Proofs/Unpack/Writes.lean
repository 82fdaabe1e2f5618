import Debundle.Proofs.Disk.Confinement
import Debundle.Unpack

/-!
# Writing module files one after the other

A write that succeeds leaves its content where its path leads, and one that does not takes
nothing away.  After all of them, a place that some write led to holds the content of the last
one, and everything else is as it was.
-/

namespace Debundle

open Procedure

namespace Run

variable {α : Type} {session after : Session}

theorem exists_of_onDisk_eq_ok {action : Disk α} {result : α}
    (haction : outcome (onDisk action) session = (.ok result, after)) :
    ∃ store, outcome action session.store = (.ok result, store) ∧
      after = { session with store } := by
  rw [onDisk, outcome_get_bind] at haction
  cases hrun : action.run.run session.store with
  | mk ending store =>
    rw [hrun] at haction
    cases ending with
    | ok value =>
      cases haction
      exact ⟨store, hrun, rfl⟩
    | error fault => cases haction

theorem ofExcept_eq_ok_iff {step : Except Fault α} {result : α} :
    outcome (ofExcept step) session = (.ok result, after) ↔
      step = .ok result ∧ after = session := by
  cases step with
  | ok value => simp [ofExcept, eq_comm]
  | error fault => simp [ofExcept]

end Run

/-- What one write does to the store. -/
structure WriteStep (directory : Path) (file : Value × Content) (before : Store)
    (write : WriteResult) (after : Store) : Prop where
  name_eq : write.name = file.1
  path_eq : write.path = modulePath directory file.1
  replaced : write.isSuccess = true →
    file.2.isText = true ∧ Store.Replaced write.path file.2.text before after
  kept : write.isSuccess = false → Store.Extends before after

theorem WriteStep.current_eq {directory : Path} {file : Value × Content} {before after : Store}
    {write : WriteResult} (hstep : WriteStep directory file before write after) :
    after.current = before.current := by
  cases hsuccess : write.isSuccess with
  | false => exact (hstep.kept hsuccess).current_eq
  | true => exact (hstep.replaced hsuccess).2.keepsBeside.current_eq

theorem writeModule_step {directory : Path} {name : Value} {content : Content}
    {store after : Store} {write : WriteResult}
    (hwrite : outcome (writeModule directory name content) store = (.ok write, after)) :
    WriteStep directory (name, content) store write after := by
  obtain ⟨ending, last, hlast, hending⟩ := writeModule_ending directory name content store
  cases hwrite.symm.trans hlast
  cases hending with
  | escapes => exact ⟨rfl, rfl, fun hsuccess => (by cases hsuccess), fun _ => Std.Refl.refl store⟩
  | done _ hreplace =>
    exact ⟨rfl, rfl, fun _ => hreplace.replaced_of_ok, fun hfails => (by cases hfails)⟩
  | refused _ hreplace =>
    exact ⟨rfl, rfl, fun hsuccess => (by cases hsuccess), fun _ => hreplace.extends_of_error⟩

/-- Files are written in order. -/
inductive WriteRun (directory : Path) :
    Store → List (Value × Content) → List WriteResult → Store → Prop where
  | done (store : Store) : WriteRun directory store [] [] store
  | step {before between after : Store} {file : Value × Content} {files : List (Value × Content)}
      {write : WriteResult} {writes : List WriteResult} :
      WriteStep directory file before write between →
      WriteRun directory between files writes after →
      WriteRun directory before (file :: files) (write :: writes) after

/-- The content of the last of the successful writes that lead to a place. -/
def lastContent? (current : Location) (files : List (Value × Content)) (writes : List WriteResult)
    (place : Location) : Option Content :=
  ((files.zip writes).reverse.find? fun written =>
    written.2.isSuccess && written.2.path.resolve current == place).map fun written =>
      written.1.2

variable {directory : Path} {before after : Store} {file : Value × Content}
  {files : List (Value × Content)} {write : WriteResult} {writes : List WriteResult}
  {current place : Location} {content : Content}

theorem lastContent?_cons :
    lastContent? current (file :: files) (write :: writes) place =
      (lastContent? current files writes place).or
        (if write.isSuccess && write.path.resolve current == place then some file.2 else none) := by
  rw [lastContent?, lastContent?, List.zip_cons_cons, List.reverse_cons, List.find?_append,
    List.find?_singleton, Option.map_or]
  split <;> rfl

/-- Where a write has led, there is a last content. -/
theorem exists_lastContent (current : Location) (hmem : (file, write) ∈ files.zip writes)
    (hsuccess : write.isSuccess = true) :
    ∃ content, lastContent? current files writes (write.path.resolve current) = some content := by
  rw [← Option.isSome_iff_exists, lastContent?, Option.isSome_map, List.find?_isSome]
  exact ⟨(file, write), List.mem_reverse.2 hmem, by simp [hsuccess]⟩

/-- The last content at a place is that of a write that leads there. -/
theorem exists_write_of_lastContent
    (hcontent : lastContent? current files writes place = some content) :
    ∃ name write, ((name, content), write) ∈ files.zip writes ∧ write.isSuccess = true ∧
      write.path.resolve current = place := by
  obtain ⟨⟨⟨name, _⟩, write⟩, hfind, rfl⟩ := Option.map_eq_some_iff.1 hcontent
  have hmem := List.mem_reverse.1 (List.mem_of_find?_eq_some hfind)
  have hleads := List.find?_some hfind
  rw [Bool.and_eq_true, beq_iff_eq] at hleads
  exact ⟨name, write, hmem, hleads⟩

namespace WriteRun

variable (hrun : WriteRun directory before files writes after)

include hrun

/-- Whatever no write leads to is kept. -/
theorem keeps : Store.Keeps
    (fun location entry => lastContent? before.current files writes location = none ∨
      entry = .directory) before after := by
  induction hrun with
  | done store => exact Std.Refl.refl store
  | @step before between after file files write writes hstep _ ih =>
    have hfirst : Store.Keeps (fun location entry =>
        lastContent? before.current (file :: files) (write :: writes) location = none ∨
          entry = .directory) before between := by
      cases hsuccess : write.isSuccess with
      | false => exact (hstep.kept hsuccess).keeps
      | true =>
        refine (hstep.replaced hsuccess).2.keepsBeside.mono fun location entry hkept =>
          hkept.imp_left ?_
        rintro hnone rfl
        simp [lastContent?_cons, hsuccess] at hnone
    rw [hfirst.current_eq] at ih
    refine IsTrans.trans _ _ _ hfirst (ih.mono fun location entry hkept => hkept.imp_left ?_)
    intro hnone
    rw [lastContent?_cons, Option.or_eq_none_iff] at hnone
    exact hnone.1

/-- A place that some write leads to holds the content of the last one. -/
theorem entry?_eq (hcontent : lastContent? before.current files writes place = some content) :
    content.isText = true ∧ after.entry? place = some (.file content.text.toUTF8) := by
  induction hrun with
  | done store => cases hcontent
  | @step before between after file files write writes hstep hrest ih =>
    have hcurrent := hstep.current_eq
    rw [lastContent?_cons] at hcontent
    cases hlater : lastContent? before.current files writes place with
    | some later =>
      rw [hlater, Option.some_or] at hcontent
      cases hcontent
      rw [hcurrent] at ih
      exact ih hlater
    | none =>
      rw [hlater, Option.none_or] at hcontent
      split at hcontent
      · next hleads =>
          rw [Bool.and_eq_true, beq_iff_eq] at hleads
          obtain ⟨hsuccess, rfl⟩ := hleads
          cases hcontent
          have hkeeps := hrest.keeps
          rw [hcurrent] at hkeeps
          obtain ⟨htext, hreplaced⟩ := hstep.replaced hsuccess
          exact ⟨htext, hkeeps.entry?_eq (.inl hlater) hreplaced.entry?_eq⟩
      · cases hcontent

theorem forall₂ : List.Forall₂ (fun file write =>
    write.name = file.1 ∧ write.path = modulePath directory file.1) files writes := by
  induction hrun with
  | done => exact .nil
  | step hstep _ ih => exact .cons ⟨hstep.name_eq, hstep.path_eq⟩ ih

theorem path_eq (hmem : write ∈ writes) : write.path = modulePath directory write.name := by
  induction hrun with
  | done => cases hmem
  | step hstep _ ih =>
    obtain rfl | hlater := List.mem_cons.1 hmem
    · rw [hstep.path_eq, hstep.name_eq]
    · exact ih hlater

/-- The path of a write that succeeds leads to its place ever after. -/
theorem locate_eq (hmem : write ∈ writes) (hsuccess : write.isSuccess = true) :
    after.locate write.path = .ok (write.path.resolve after.current) := by
  induction hrun with
  | done => cases hmem
  | step hstep hrest ih =>
    obtain rfl | hlater := List.mem_cons.1 hmem
    · have hkeeps := hrest.keeps
      rw [hkeeps.current_eq, hstep.current_eq]
      exact Store.KeepsDirectories.locate_eq (hkeeps.mono fun _ _ => .inr)
        (hstep.replaced hsuccess).2.locate_eq
    · exact ih hlater

/-- What a write that succeeds leads to in the end. -/
theorem look_eq (hmem : write ∈ writes) (hsuccess : write.isSuccess = true)
    (hcontent : lastContent? after.current files writes (write.path.resolve after.current) =
      some content) :
    content.isText = true ∧ after.look write.path = .ok (.file content.text.toUTF8) := by
  have hcurrent := hrun.keeps.current_eq
  rw [hcurrent] at hcontent
  obtain ⟨htext, hentry⟩ := hrun.entry?_eq hcontent
  rw [← hcurrent] at hentry
  exact ⟨htext, Store.look_of_locate (hrun.locate_eq hmem hsuccess) hentry⟩

end WriteRun

theorem writeModules_run {session last : Session}
    (hwrites : outcome (writeModules directory files) session = (.ok writes, last)) :
    WriteRun directory session.store files writes last.store := by
  induction files generalizing session writes with
  | nil =>
    cases hwrites
    exact .done _
  | cons file files ih =>
    obtain ⟨name, content⟩ := file
    rw [writeModules] at hwrites
    obtain ⟨write, written, hwrite, htell⟩ := bind_eq_ok_iff.1 hwrites
    obtain ⟨store, hstep, rfl⟩ := Run.exists_of_onDisk_eq_ok hwrite
    obtain ⟨_, told, htold, hrest⟩ := bind_eq_ok_iff.1 htell
    cases htold
    obtain ⟨others, final, hothers, hfinish⟩ := bind_eq_ok_iff.1 hrest
    cases hfinish
    exact .step (writeModule_step hstep) (ih hothers)

end Debundle
