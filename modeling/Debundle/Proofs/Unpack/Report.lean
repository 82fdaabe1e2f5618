import Debundle.Proofs.Table.Collisions
import Debundle.Proofs.Table.Links
import Debundle.Proofs.Unpack.Writes

/-!
# What the report says about the disk

A report calls a module written if the file of its name was written.  That file is still
there in the end, with the content of the last module whose path leads to it.
-/

namespace Debundle

open Procedure

variable {tools : Tools} {options : UnpackOptions} {bundle : Bundle} {session after : Session}
  {unpacked : Unpacked} {table : ModuleTable}

/-- What a run that ends with a result has done. -/
structure Unpacked.IsRun (tools : Tools) (options : UnpackOptions) (bundle : Bundle)
    (after : Session) (unpacked : Unpacked) : Prop where
  built : ∃ wrapper,
    unpacked.table.IsBuilt (Value.script { source := some bundle.text }) wrapper
  files_eq : fileContents tools options unpacked.table.sources = .ok unpacked.files
  writes : ∃ before, WriteRun options.directory before
    (if options.listsOnly then [] else unpacked.files) unpacked.writes after.store
  report_eq : unpacked.report = Report.ofRun bundle.origin options.directory unpacked.table
    unpacked.files.length unpacked.writes

theorem extractModules_eq_ok {parser : Parser} {source : String}
    (hextract : outcome (extractModules parser source) session = (.ok table, after)) :
    ∃ wrapper, table.IsBuilt (Value.script { source := some source }) wrapper := by
  rw [extractModules] at hextract
  cases hparse : parser.parse source false with
  | error message =>
    rw [hparse] at hextract
    cases hextract
  | ok tree =>
    simp only [hparse] at hextract
    obtain ⟨-, told, -, hextract⟩ := bind_eq_ok_iff.1 hextract
    obtain ⟨found, between, hfound, hextract⟩ := bind_eq_ok_iff.1 hextract
    cases found with
    | none => cases hextract
    | some wrapper =>
      obtain ⟨count, counted, -, hextract⟩ := bind_eq_ok_iff.1 hextract
      obtain ⟨-, told, -, hextract⟩ := bind_eq_ok_iff.1 hextract
      obtain ⟨built, building, hbuild, hextract⟩ := bind_eq_ok_iff.1 hextract
      obtain ⟨-, told, -, hextract⟩ := bind_eq_ok_iff.1 hextract
      rw [outcome_pure] at hextract
      cases hextract
      exact ⟨wrapper, ModuleTable.isBuilt_of_build (Run.ofExcept_eq_ok_iff.1 hbuild).1⟩

theorem writeTable_isRun {wrapper : Value}
    (hbuilt : table.IsBuilt (Value.script { source := some bundle.text }) wrapper)
    (hwrite : outcome (writeTable tools options bundle.origin table) session =
      (.ok unpacked, after)) :
    unpacked.IsRun tools options bundle after := by
  rw [writeTable] at hwrite
  obtain ⟨_, reused, -, hformats⟩ := bind_eq_ok_iff.1 hwrite
  obtain ⟨_, formatted, -, hrest⟩ := bind_eq_ok_iff.1 hformats
  obtain ⟨files, told, htexts, hfinish⟩ := bind_eq_ok_iff.1 hrest
  have hfiles := (Run.ofExcept_eq_ok_iff.1 htexts).1
  by_cases hlists : options.listsOnly = true
  · simp only [if_pos hlists] at hfinish
    cases hfinish
    refine ⟨⟨wrapper, hbuilt⟩, hfiles, ⟨told.store, ?_⟩, rfl⟩
    rw [if_pos hlists]
    exact .done told.store
  · simp only [if_neg hlists] at hfinish
    obtain ⟨writes, written, hrun, hreport⟩ := bind_eq_ok_iff.1 hfinish
    have hwrites := writeModules_run hrun
    cases hreport
    refine ⟨⟨wrapper, hbuilt⟩, hfiles, ⟨told.store, ?_⟩, rfl⟩
    rwa [if_neg hlists]

theorem unpack_isRun
    (hunpack : outcome (unpack tools options bundle) session = (.ok unpacked, after)) :
    unpacked.IsRun tools options bundle after := by
  rw [unpack] at hunpack
  obtain ⟨table, extracted, htable, hunpack⟩ := bind_eq_ok_iff.1 hunpack
  obtain ⟨wrapper, hbuilt⟩ := extractModules_eq_ok htable
  cases htrace : options.tracePath with
  | none =>
    rw [htrace] at hunpack
    exact writeTable_isRun hbuilt hunpack
  | some path =>
    rw [htrace] at hunpack
    obtain ⟨_, traced, -, hunpack⟩ := bind_eq_ok_iff.1 hunpack
    exact writeTable_isRun hbuilt hunpack

namespace ModuleTable.IsBuilt

variable {render : Renderer} {wrapper : Value} {first module : Module}
  {files : List (Value × Content)} {file : Value × Content}
  (hbuilt : table.IsBuilt render wrapper)

include hbuilt

theorem pairwise_id_lt : table.modules.Pairwise fun left right => left.id < right.id := by
  have hids : (table.modules.map Module.toNamedModule).Pairwise
      fun left right => left.id < right.id := by
    rw [← List.pairwise_map, hbuilt.names.map_id]
    refine List.Pairwise.sublist (List.filter_sublist.map Prod.snd) ?_
    rw [List.zipIdx_map_snd]
    exact List.pairwise_lt_range'
  rwa [List.pairwise_map] at hids

theorem name_isKey (hmodule : module ∈ table.modules) : module.name.isKey = true :=
  (NamingRun.isNamed hbuilt.names (List.mem_map_of_mem hmodule)).name_isKey

/-- Two modules of one name have the same text for a name. -/
theorem exists_text_of_same {left right : Module} (hleft : left ∈ table.modules)
    (hright : right ∈ table.modules) (hid : left.id ≠ right.id)
    (hsame : (left.name == right.name) = true) :
    ∃ text, left.name = .text text ∧ right.name = .text text :=
  hbuilt.names.exists_text_of_same (List.mem_map_of_mem hleft) (List.mem_map_of_mem hright) hid
    hsame

/-- A module without a later one of its name is the last use of its name. -/
theorem lastUse_eq (hfirst : first ∈ table.modules) (hmodule : module ∈ table.modules)
    (hsame : (first.name == module.name) = true) (hlast : table.isLastOfName module = true) :
    lastUse table.modules first = module := by
  have hlater : ∀ other ∈ table.modules, module.id < other.id →
      (first.name == other.name) = false := by
    intro other hother hid
    by_contra hboth
    rw [Bool.not_eq_false] at hboth
    obtain ⟨text, hmoduleName, hotherName⟩ :
        ∃ text, module.name = .text text ∧ other.name = .text text := by
      by_cases hself : first.id = module.id
      · obtain rfl := List.inj_on_of_nodup_map hbuilt.nodup_id hfirst hmodule hself
        exact hbuilt.exists_text_of_same hfirst hother hid.ne hboth
      · obtain ⟨text, hfirstName, hmoduleName⟩ :=
          hbuilt.exists_text_of_same hfirst hmodule hself hsame
        rw [hfirstName, Value.text_beq_iff] at hboth
        exact ⟨text, hmoduleName, hboth⟩
    have hnot : (other.name == module.name) = false := by
      simpa [hid] using List.all_eq_true.1 hlast other hother
    rw [hmoduleName, hotherName, Value.text_beq_iff.2 rfl] at hnot
    cases hnot
  obtain ⟨before, later, hmodules⟩ := List.append_of_mem hmodule
  have hordered := hbuilt.pairwise_id_lt
  rw [hmodules, List.pairwise_append, List.pairwise_cons] at hordered
  have hnone : (later.filter fun other => first.name == other.name) = [] := by
    refine List.filter_eq_nil_iff.2 fun other hother => ?_
    have hmem : other ∈ table.modules := by simp [hmodules, hother]
    rw [hlater other hmem (hordered.2.1.1 other hother)]
    simp
  rw [lastUse, hmodules, List.filter_append, List.filter_cons, if_pos hsame, hnone,
    List.getLastD_concat]

end ModuleTable.IsBuilt

/-- Each file has the name of a module and the content of the last one of that name. -/
theorem exists_module_of_file {render : Renderer} {wrapper : Value}
    {files : List (Value × Content)} {file : Value × Content}
    (hbuilt : table.IsBuilt render wrapper)
    (hfiles : fileContents tools options table.sources = .ok files) (hfile : file ∈ files) :
    ∃ first ∈ table.modules, first.name = file.1 ∧
      fileContent tools options (lastUse table.modules first).source = .ok file.2 := by
  rw [fileContents, ModuleTable.sources_eq (hbuilt.names.pairwise_shareText (.refl _))] at hfiles
  obtain ⟨entry, hentry, htext⟩ := Attempt.exists_of_mem_mapM hfiles hfile
  obtain ⟨first, hfirst, rfl⟩ := List.mem_map.1 hentry
  simp only [Attempt.bind_eq_ok_iff, Attempt.pure_eq_ok_iff] at htext
  obtain ⟨text, htext, rfl⟩ := htext
  exact ⟨first, (firstUses_sublist _).subset hfirst, rfl, htext⟩

/-- The first write of a name belongs to the file that is found under the name. -/
theorem lookup_of_find? {directory : Path} {files : List (Value × Content)}
    {writes : List WriteResult} {write : WriteResult} {name : Value}
    (hwrites : List.Forall₂ (fun file write =>
      write.name = file.1 ∧ write.path = modulePath directory file.1) files writes)
    (hcomm : ∀ file ∈ files, (file.1 == name) = (name == file.1))
    (hfind : (writes.find? fun write => write.name == name) = some write) :
    ∃ file, (file, write) ∈ files.zip writes ∧ (file.1 == name) = true ∧
      files.lookup name = some file.2 := by
  induction hwrites with
  | nil => cases hfind
  | @cons file first files writes hfirst _ ih =>
    rw [List.lookup_cons, ← hcomm file List.mem_cons_self]
    rw [List.find?_cons, hfirst.1] at hfind
    cases hsame : file.1 == name with
    | true =>
      rw [hsame] at hfind
      cases hfind
      exact ⟨file, List.mem_cons_self, hsame, rfl⟩
    | false =>
      rw [hsame] at hfind
      obtain ⟨found, hmem, hname, hlookup⟩ :=
        ih (fun other hother => hcomm other (List.mem_cons_of_mem file hother)) hfind
      exact ⟨found, List.mem_cons_of_mem _ hmem, hname, hlookup⟩

/-- What it takes for a report to call a module written. -/
theorem exists_write_of_written {entry : ModuleReport} {writes : List WriteResult}
    (hentry : entry ∈ table.modules.map (Report.entryOf table writes))
    (hwritten : entry.written = true) :
    ∃ module ∈ table.modules, entry.id = module.id ∧ entry.name = module.name ∧
      table.isLastOfName module = true ∧ ∃ write,
        (writes.find? fun write => write.name == module.name) = some write ∧
        write.isSuccess = true ∧ entry.path = some write.path.toText := by
  obtain ⟨module, hmodule, rfl⟩ := List.mem_map.1 hentry
  simp only [Report.entryOf] at hwritten ⊢
  by_cases hlast : table.isLastOfName module = true
  · simp only [if_pos hlast] at hwritten ⊢
    cases hfind : writes.find? fun write => write.name == module.name with
    | none =>
      rw [hfind] at hwritten
      cases hwritten
    | some write =>
      rw [hfind] at hwritten
      exact ⟨module, hmodule, rfl, rfl, hlast, write, hfind, hwritten, rfl⟩
  · rw [if_neg hlast] at hwritten
    cases hwritten

/-- If the report calls a module written, the file at its path is there in the end.  It
holds the content of the last of the successful writes that lead to it, which is that of
the module itself unless a file of another name was written to the same place. -/
theorem unpack_written_holds_last_text {directory : String} {entry : ModuleReport}
    (hdirectory : options.directory = Path.ofText directory)
    (hwrites : options.listsOnly = false)
    (hunpack : outcome (unpack tools options bundle) session = (.ok unpacked, after))
    (hentry : entry ∈ unpacked.report.modules) (hwritten : entry.written = true) :
    ∃ path content held, entry.path = some path ∧
      unpacked.files.lookup entry.name = some content ∧
      (∃ module ∈ unpacked.table.modules, entry.id = module.id ∧
        fileContent tools options module.source = .ok content) ∧
      lastContent? after.store.current unpacked.files unpacked.writes
        ((Path.ofText path).resolve after.store.current) = some held ∧
      held.isText = true ∧
      after.store.look (Path.ofText path) = .ok (.file held.text.toUTF8) ∧
      ((∀ write ∈ unpacked.writes, write.isSuccess = true →
          write.path.resolve after.store.current =
            (Path.ofText path).resolve after.store.current →
          (write.name == entry.name) = true) →
        held = content) := by
  obtain ⟨⟨wrapper, hbuilt⟩, hfiles, ⟨before, hrun⟩, hreport⟩ := unpack_isRun hunpack
  rw [hwrites, if_neg Bool.false_ne_true] at hrun
  rw [hreport] at hentry
  obtain ⟨module, hmodule, hid, hname, hlast, write, hfind, hsuccess, hpath⟩ :=
    exists_write_of_written hentry hwritten
  have hown : ∀ file ∈ unpacked.files, (file.1 == module.name) = true →
      fileContent tools options module.source = .ok file.2 := by
    intro file hfile hsame
    obtain ⟨first, hfirst, hfirstName, htext⟩ := exists_module_of_file hbuilt hfiles hfile
    rwa [hbuilt.lastUse_eq hfirst hmodule (hfirstName ▸ hsame) hlast] at htext
  have hcomm : ∀ file ∈ unpacked.files, (file.1 == module.name) = (module.name == file.1) := by
    intro file hfile
    obtain ⟨first, hfirst, hfirstName, -⟩ := exists_module_of_file hbuilt hfiles hfile
    rw [← hfirstName]
    exact Value.beq_comm_of_isKey (hbuilt.name_isKey hfirst) (hbuilt.name_isKey hmodule)
  obtain ⟨file, hmem, hsame, hlookup⟩ := lookup_of_find? hrun.forall₂ hcomm hfind
  have hplain : Path.ofText write.path.toText = write.path := by
    rw [(List.forall₂_zip hrun.forall₂ hmem).2, modulePath, hdirectory]
    exact Path.ofText_toText ((Path.ofText_isPlain directory).join _)
  obtain ⟨held, hheld⟩ := exists_lastContent after.store.current hmem hsuccess
  refine ⟨write.path.toText, file.2, held, hpath, hname ▸ hlookup, ⟨module, hmodule, hid, ?_⟩,
    hplain.symm ▸ hheld, ?_⟩
  · exact hown file (List.of_mem_zip hmem).1 hsame
  · obtain ⟨htext, hlook⟩ := hrun.look_eq (List.of_mem_zip hmem).2 hsuccess hheld
    refine ⟨htext, hplain.symm ▸ hlook, fun halone => ?_⟩
    obtain ⟨name, last, hlastMem, hlastSuccess, hplace⟩ := exists_write_of_lastContent hheld
    have hlastName := halone last (List.of_mem_zip hlastMem).2 hlastSuccess
      (hplace.trans (congrArg (Path.resolve · after.store.current) hplain.symm))
    rw [(List.forall₂_zip hrun.forall₂ hlastMem).1, hname] at hlastName
    have hheldText := hown (name, held) (List.of_mem_zip hlastMem).1 hlastName
    exact Except.ok.inj (hheldText.symm.trans (hown file (List.of_mem_zip hmem).1 hsame))

/-- The outcome of unpacking a bundle with these modules into an empty directory. -/
def unpackModules (modules : List Value) : Except Failure Unpacked × Session :=
  outcome
    (unpack { parser := fun _ _ => .ok (Build.bundle modules), formatter := fun _ _ => .ok [] }
      { directory := Path.ofText "out", formats := false } { text := "", origin := "<test>" })
    { store := { current := [], entries := [] } }

theorem exists_unpackModules {modules : List Value} {check : Unpacked → Prop}
    [DecidablePred check]
    (hcheck : ((unpackModules modules).1.toOption.map fun unpacked => decide (check unpacked)) =
      some true) :
    ∃ unpacked, unpackModules modules = (.ok unpacked, (unpackModules modules).2) ∧
      check unpacked := by
  obtain ⟨unpacked, hunpacked, hfacts⟩ := Attempt.of_toOption_map hcheck
  exact ⟨unpacked, Prod.ext hunpacked rfl, of_decide_eq_true hfacts⟩

/-- The names `Foo` and `./Foo` lead to one file. -/
theorem unpackModules_sharing : ∃ unpacked,
    unpackModules [Build.exporting "Foo", Build.exporting "./Foo"] =
      (.ok unpacked, (unpackModules [Build.exporting "Foo", Build.exporting "./Foo"]).2) ∧
    (unpacked.report.modules.map fun entry => (entry.name, entry.path, entry.written)) =
      [(.text "Foo", some "out/Foo.js", true), (.text "./Foo", some "out/Foo.js", true)] ∧
    unpacked.report.warnings = [] ∧ unpacked.report.errors = [] ∧
    unpacked.files = [(.text "Foo", .ofText "module.exports = 'Foo';\n"),
      (.text "./Foo", .ofText "module.exports = './Foo';\n")] := by
  apply exists_unpackModules
  decide +kernel

/-- The file of `Foo` holds what `./Foo` has left there. -/
theorem unpack_written_holds_last_text_sharing :
    ∃ unpacked after entry,
      unpackModules [Build.exporting "Foo", Build.exporting "./Foo"] = (.ok unpacked, after) ∧
      entry ∈ unpacked.report.modules ∧ entry.name = .text "Foo" ∧ entry.written = true ∧
      ∃ path held, entry.path = some path ∧
        lastContent? after.store.current unpacked.files unpacked.writes
          ((Path.ofText path).resolve after.store.current) = some held ∧
        held.isText = true ∧
        after.store.look (Path.ofText path) = .ok (.file held.text.toUTF8) := by
  obtain ⟨unpacked, hunpacked, hmodules, -⟩ := unpackModules_sharing
  obtain ⟨entry, rest, hentries, hentry, -⟩ := List.map_eq_cons_iff.1 hmodules
  simp only [Prod.mk.injEq] at hentry
  have hmem : entry ∈ unpacked.report.modules := by simp [hentries]
  obtain ⟨path, content, held, hpath, -, -, hheld, htext, hlook, -⟩ :=
    unpack_written_holds_last_text rfl rfl hunpacked hmem hentry.2.2
  exact ⟨unpacked, _, entry, hunpacked, hmem, hentry.1, hentry.2.2, path, held, hpath, hheld, htext,
    hlook⟩

/-- Both modules are reported as written, without a warning, though the file of the first
holds the text of the second. -/
theorem unpack_overwrites_unreported :
    ∃ unpacked after,
      unpackModules [Build.exporting "Foo", Build.exporting "./Foo"] = (.ok unpacked, after) ∧
      (unpacked.report.modules.map fun entry => (entry.name, entry.path, entry.written)) =
        [(.text "Foo", some "out/Foo.js", true), (.text "./Foo", some "out/Foo.js", true)] ∧
      unpacked.report.warnings = [] ∧ unpacked.report.errors = [] ∧
      unpacked.files.lookup (.text "Foo") = some (.ofText "module.exports = 'Foo';\n") ∧
      after.store.look (Path.ofText "out/Foo.js") =
        .ok (.file "module.exports = './Foo';\n".toUTF8) := by
  obtain ⟨unpacked, hunpacked, hmodules, hwarnings, herrors, hfiles⟩ := unpackModules_sharing
  refine ⟨unpacked, _, hunpacked, hmodules, hwarnings, herrors, ?_, ?_⟩
  · rw [hfiles]
    rfl
  · decide +kernel

end Debundle
