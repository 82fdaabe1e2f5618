import Debundle.Proofs.Unpack.Report

/-!
# How a report accounts for a run

A report has an entry for each module.  Several modules may have one name, and then one file is
written for all of them: the first of them gives the file its place in the order, the last of
them has it in the report, and the others are counted in a warning.
-/

namespace Debundle

open Procedure

/-- Whether no earlier module has this module's name. -/
def ModuleTable.isFirstOfName (table : ModuleTable) (module : Module) : Bool :=
  table.modules.all fun other => !(other.id < module.id && other.name == module.name)

section Uses

variable {modules : List Module}

/-- Those that share their name with no earlier module are the first uses of their names. -/
theorem filter_first_eq_firstUses (hids : modules.Pairwise fun left right => left.id < right.id) :
    (modules.filter fun module =>
      modules.all fun other => !(other.id < module.id && other.name == module.name)) =
      firstUses modules := by
  induction modules using List.reverseRecOn with
  | nil => rfl
  | append_singleton modules last ih =>
    rw [List.pairwise_append] at hids
    have hbefore : ∀ module ∈ modules, module.id < last.id := fun module hmodule =>
      hids.2.2 module hmodule last (List.mem_singleton.2 rfl)
    rw [firstUses_concat, ← ih hids.1, List.filter_append]
    congr 1
    · refine List.filter_congr fun module hmodule => ?_
      simp [Nat.lt_asymm (hbefore module hmodule)]
    · have hlast : ((modules ++ [last]).all fun other =>
          !(other.id < last.id && other.name == last.name)) =
          !modules.any fun module => module.name == last.name := by
        rw [Bool.eq_iff_iff]
        simp +contextual [hbefore]
      rw [List.filter_singleton, hlast]
      cases modules.any fun module => module.name == last.name <;> rfl

/-- Of the modules of one name just one is a first use. -/
theorem countP_firstUses {text : String} (hshare : modules.Pairwise Module.ShareText)
    {module : Module} (hmodule : module ∈ modules) (hname : module.name = .text text) :
    ((firstUses modules).countP fun other => Value.text text == other.name) = 1 := by
  obtain ⟨first, hfirst, hfirstName⟩ : ∃ first ∈ firstUses modules, first.name = .text text := by
    obtain hself | ⟨first, hfirst, hsame⟩ := exists_firstUse hshare hmodule
    · exact ⟨module, hself, hname⟩
    · rw [hname] at hsame
      exact ⟨first, hfirst, Value.same_eq_text hsame⟩
  obtain ⟨before, after, hsplit⟩ := List.append_of_mem hfirst
  have hapart := firstUses_pairwise modules
  rw [hsplit, List.pairwise_append, List.pairwise_cons, hfirstName] at hapart
  rw [hsplit, List.countP_append,
    List.countP_cons_of_pos (by simp [hfirstName, Value.text_beq_iff])]
  have hbefore : before.countP (fun other => Value.text text == other.name) = 0 := by
    rw [List.countP_eq_zero]
    intro other hother hsame
    have hnot := hapart.2.2 other hother first List.mem_cons_self
    rw [Value.text_beq_iff.1 hsame, hfirstName, Value.text_beq_iff.2 rfl] at hnot
    cases hnot
  have hafter : after.countP (fun other => Value.text text == other.name) = 0 := by
    rw [List.countP_eq_zero]
    intro other hother
    rw [hapart.2.1.1 other hother]
    exact Bool.false_ne_true
  rw [hbefore, hafter]

/-- There are as many last uses of names as there are first uses. -/
theorem length_filter_last (hids : modules.Pairwise fun left right => left.id < right.id)
    (hshare : modules.Pairwise Module.ShareText) :
    (modules.filter fun module =>
      modules.all fun other => !(module.id < other.id && other.name == module.name)).length =
      (firstUses modules).length := by
  induction modules with
  | nil => rfl
  | cons module rest ih =>
    rw [List.pairwise_cons] at hids hshare
    have hhead : ((module :: rest).all fun other =>
        !(module.id < other.id && other.name == module.name)) =
        !rest.any fun other => other.name == module.name := by
      rw [Bool.eq_iff_iff]
      simp +contextual [hids.1]
    have htail : (rest.filter fun other => (module :: rest).all fun third =>
        !(other.id < third.id && third.name == other.name)) =
        rest.filter fun other => rest.all fun third =>
          !(other.id < third.id && third.name == other.name) := by
      refine List.filter_congr fun other hother => ?_
      simp [Nat.lt_asymm (hids.1 other hother)]
    have hothers : ((firstUses rest).filter fun other => !(module.name == other.name)).length +
        (firstUses rest).countP (fun other => module.name == other.name) =
        (firstUses rest).length := by
      rw [← List.countP_eq_length_filter, Nat.add_comm]
      simpa using (List.length_eq_countP_add_countP fun other : Module =>
        module.name == other.name).symm
    rw [List.filter_cons, hhead, htail, firstUses, List.length_cons]
    cases hshared : rest.any fun other => other.name == module.name with
    | false =>
      have hnone : (firstUses rest).countP (fun other => module.name == other.name) = 0 := by
        rw [List.countP_eq_zero]
        intro other hother hsame
        have hmem := (firstUses_sublist rest).subset hother
        obtain ⟨text, hname, hotherName⟩ := hshare.1 other hmem (.inl hsame)
        have hnot := List.any_eq_false.1 hshared other hmem
        rw [hname, hotherName, Value.text_beq_iff.2 rfl] at hnot
        exact hnot rfl
      rw [Bool.not_false, if_pos rfl, List.length_cons, ih hids.2 hshare.2]
      omega
    | true =>
      obtain ⟨other, hother, hsame⟩ := List.any_eq_true.1 hshared
      obtain ⟨text, hname, hotherName⟩ := hshare.1 other hother (.inr hsame)
      have hone := countP_firstUses hshare.2 hother hotherName
      rw [← hname] at hone
      rw [Bool.not_true, if_neg Bool.false_ne_true, ih hids.2 hshare.2]
      omega

end Uses

/-- What an entry of a report says about a module.  Of the modules of one name only the last has
the file that was written under it. -/
structure ModuleReport.Describes (table : ModuleTable) (writes : List WriteResult)
    (module : Module) (entry : ModuleReport) : Prop where
  id_eq : entry.id = module.id
  name_eq : entry.name = module.name
  error_eq : entry.error = module.error?
  renamed_eq : entry.identifiersRenamed = (module.tally.getD {}).renamed
  rewritten_eq : entry.requiresRewritten = (module.tally.getD {}).rewritten
  unresolved_eq : entry.requiresUnresolved = (module.tally.getD {}).unresolved.length
  owned : table.isLastOfName module = true → ∀ write ∈ writes,
    (write.name == module.name) = true →
      entry.path = some write.path.toText ∧ entry.written = write.isSuccess
  unowned : table.isLastOfName module = false ∨ writes = [] →
    entry.path = none ∧ entry.written = false

/-- The modules that lose their file to a later module of their name. -/
def ModuleTable.replaced (table : ModuleTable) : List Module :=
  table.modules.filter fun module => !table.isLastOfName module

/-- A report that accounts for a run. -/
structure Unpacked.KeepsBooks (options : UnpackOptions) (unpacked : Unpacked) : Prop where
  entries : List.Forall₂ (ModuleReport.Describes unpacked.table unpacked.writes)
    unpacked.table.modules unpacked.report.modules
  listed : options.listsOnly = true → unpacked.writes = []
  /-- There is one write for each name, in the order in which the names are first used. -/
  written : options.listsOnly = false → List.Forall₂ (fun first write =>
      write.name = first.name ∧ write.path = modulePath options.directory first.name)
    (unpacked.table.modules.filter unpacked.table.isFirstOfName) unpacked.writes
  apart : unpacked.writes.Pairwise fun left right => (left.name == right.name) = false
  covered : options.listsOnly = false → ∀ module ∈ unpacked.table.modules,
    ∃ write ∈ unpacked.writes, write.name = module.name
  errors : List.Forall₂ (fun write line => ∃ error, write.error? = some error ∧
      line = write.path.toText ++ ": " ++ error)
    (unpacked.writes.filter fun write => !write.isSuccess) unpacked.report.errors
  success : unpacked.isSuccess = true ↔ unpacked.report.errors = []
  /-- The first warning is there if a name repeats, and the others are one for each module that
  could not be rendered. -/
  warnings : ∃ rendered, unpacked.report.warnings =
      (if unpacked.table.replaced = [] then []
        else [toString unpacked.table.replaced.length
          ++ " module(s) share a name with a later module"]) ++ rendered ∧
    List.Forall₂ (fun module line => ∃ error, module.error? = some error ∧
        line = "module " ++ toString module.id ++ " (" ++ module.name.display
          ++ ") rendered empty: " ++ error)
      (unpacked.table.modules.filter fun module => module.error?.isSome) rendered
  repeats : unpacked.table.replaced ≠ [] ↔
    ∃ earlier ∈ unpacked.table.modules, ∃ later ∈ unpacked.table.modules,
      earlier.id < later.id ∧ (later.name == earlier.name) = true

variable {tools : Tools} {options : UnpackOptions} {bundle : Bundle} {session after : Session}
  {unpacked : Unpacked}

theorem repeats_of_replaced {table : ModuleTable} :
    table.replaced ≠ [] ↔ ∃ earlier ∈ table.modules, ∃ later ∈ table.modules,
      earlier.id < later.id ∧ (later.name == earlier.name) = true := by
  simp [ModuleTable.replaced, ModuleTable.isLastOfName, List.filter_eq_nil_iff]

/-- The texts that some of the items have, one line for each of them. -/
theorem forall₂_toList {α : Type} (items : List α) (text? : α → Option String) :
    List.Forall₂ (fun item line => text? item = some line)
      (items.filter fun item => (text? item).isSome)
      (items.flatMap fun item => (text? item).toList) := by
  induction items with
  | nil => exact .nil
  | cons item rest ih =>
    cases htext : text? item with
    | none => simpa [htext] using ih
    | some line => simpa [htext] using ih

namespace ModuleTable.IsBuilt

variable {render : Renderer} {wrapper : Value} {table : ModuleTable} {module : Module}
  (hbuilt : table.IsBuilt render wrapper)

include hbuilt

theorem pairwise_shareText : table.modules.Pairwise Module.ShareText :=
  hbuilt.names.pairwise_shareText (.refl _)

theorem filter_first : table.modules.filter table.isFirstOfName = firstUses table.modules :=
  filter_first_eq_firstUses hbuilt.pairwise_id_lt

theorem length_replaced :
    table.replaced.length + (firstUses table.modules).length = table.modules.length := by
  have hlast : (table.modules.filter table.isLastOfName).length =
      (firstUses table.modules).length :=
    length_filter_last hbuilt.pairwise_id_lt hbuilt.pairwise_shareText
  rw [← hlast, replaced, ← List.countP_eq_length_filter, ← List.countP_eq_length_filter,
    Nat.add_comm]
  simpa using (List.length_eq_countP_add_countP table.isLastOfName).symm

/-- Only one of the first uses has the name of a module. -/
theorem pairwise_firstUses_name (hmodule : module ∈ table.modules) :
    (firstUses table.modules).Pairwise fun left right =>
      ¬ ((left.name == module.name) = true ∧ (right.name == module.name) = true) := by
  have hids := hbuilt.pairwise_id_lt.sublist (firstUses_sublist table.modules)
  refine ((firstUses_pairwise table.modules).and hids).imp_of_mem ?_
  rintro left right hleft hright ⟨hapart, hid⟩ ⟨hleftSame, hrightSame⟩
  have hleftMem := (firstUses_sublist _).subset hleft
  have hrightMem := (firstUses_sublist _).subset hright
  -- One of the two is another module, so that the name is a text.
  obtain ⟨text, htext⟩ : ∃ text, module.name = .text text := by
    by_cases hself : left.id = module.id
    · obtain ⟨text, -, htext⟩ := hbuilt.exists_text_of_same hrightMem hmodule
        (hself ▸ hid.ne') hrightSame
      exact ⟨text, htext⟩
    · obtain ⟨text, -, htext⟩ := hbuilt.exists_text_of_same hleftMem hmodule hself hleftSame
      exact ⟨text, htext⟩
  rw [htext] at hleftSame hrightSame
  rw [Value.same_eq_text hleftSame, Value.same_eq_text hrightSame, Value.text_beq_iff.2 rfl]
    at hapart
  cases hapart

theorem exists_firstUse_name (hmodule : module ∈ table.modules) :
    ∃ first ∈ firstUses table.modules, first.name = module.name := by
  obtain hself | ⟨first, hfirst, hsame⟩ := exists_firstUse hbuilt.pairwise_shareText hmodule
  · exact ⟨module, hself, rfl⟩
  · by_cases hid : first.id = module.id
    · have hmem := (firstUses_sublist _).subset hfirst
      obtain rfl := List.inj_on_of_nodup_map hbuilt.nodup_id hmem hmodule hid
      exact ⟨first, hfirst, rfl⟩
    · obtain ⟨text, hfirstName, hname⟩ := hbuilt.exists_text_of_same
        ((firstUses_sublist _).subset hfirst) hmodule hid hsame
      exact ⟨first, hfirst, hfirstName.trans hname.symm⟩

end ModuleTable.IsBuilt

namespace Unpacked.IsRun

variable (hrun : unpacked.IsRun tools options bundle after)

include hrun

/-- There is one file for each name, in the order in which the names are first used. -/
theorem map_name_firstUses :
    ((firstUses unpacked.table.modules).map fun first => first.name) =
      unpacked.files.map Prod.fst := by
  obtain ⟨wrapper, hbuilt⟩ := hrun.built
  have hfiles := hrun.files_eq
  rw [fileContents, Attempt.mapM_eq_ok_iff, ModuleTable.sources_eq hbuilt.pairwise_shareText,
    List.forall₂_map_left_iff] at hfiles
  rw [← List.forall₂_eq_eq_eq, List.forall₂_map_left_iff, List.forall₂_map_right_iff]
  refine hfiles.imp fun first file hfile => ?_
  obtain ⟨text, -, htext⟩ := Attempt.bind_eq_ok_iff.1 hfile
  rw [← Attempt.pure_eq_ok_iff.1 htext]

theorem length_files :
    unpacked.files.length = (firstUses unpacked.table.modules).length := by
  have hnames := congrArg List.length hrun.map_name_firstUses
  rwa [List.length_map, List.length_map, eq_comm] at hnames

theorem writes_eq_nil (hlists : options.listsOnly = true) : unpacked.writes = [] := by
  obtain ⟨before, hwrites⟩ := hrun.writes
  rw [if_pos hlists] at hwrites
  exact List.forall₂_nil_left_iff.1 hwrites.forall₂

theorem forall₂_writes (hlists : options.listsOnly = false) :
    List.Forall₂ (fun first write =>
        write.name = first.name ∧ write.path = modulePath options.directory first.name)
      (firstUses unpacked.table.modules) unpacked.writes := by
  obtain ⟨before, hwrites⟩ := hrun.writes
  rw [hlists, if_neg Bool.false_ne_true] at hwrites
  have hfiles := hwrites.forall₂
  rw [← @List.forall₂_map_left_iff _ _ _ (fun name (write : WriteResult) =>
    write.name = name ∧ write.path = modulePath options.directory name) Prod.fst,
    ← hrun.map_name_firstUses, List.forall₂_map_left_iff] at hfiles
  exact hfiles

theorem map_name_writes (hlists : options.listsOnly = false) :
    ((firstUses unpacked.table.modules).map fun first => first.name) =
      unpacked.writes.map fun write => write.name := by
  rw [← List.forall₂_eq_eq_eq, List.forall₂_map_left_iff, List.forall₂_map_right_iff]
  exact (hrun.forall₂_writes hlists).imp fun _ _ hwrite => hwrite.1.symm

/-- What holds of all pairs of first uses by their names holds of all pairs of writes. -/
theorem pairwise_writes (relation : Value → Value → Prop)
    (hnames : (firstUses unpacked.table.modules).Pairwise fun left right =>
      relation left.name right.name) :
    unpacked.writes.Pairwise fun left right => relation left.name right.name := by
  cases hlists : options.listsOnly with
  | true =>
    rw [hrun.writes_eq_nil hlists]
    exact .nil
  | false =>
    rw [← List.pairwise_map] at hnames ⊢
    rwa [← hrun.map_name_writes hlists]

/-- The write that is found under the name of a module is the only one of that name. -/
theorem find?_write {module : Module} {write : WriteResult}
    (hmodule : module ∈ unpacked.table.modules) (hwrite : write ∈ unpacked.writes)
    (hname : (write.name == module.name) = true) :
    (unpacked.writes.find? fun write => write.name == module.name) = some write := by
  obtain ⟨wrapper, hbuilt⟩ := hrun.built
  have hpairs := hrun.pairwise_writes
    (fun left right => ¬ ((left == module.name) = true ∧ (right == module.name) = true))
    (hbuilt.pairwise_firstUses_name hmodule)
  cases hfind : unpacked.writes.find? fun write => write.name == module.name with
  | none => exact absurd hname (List.find?_eq_none.1 hfind write hwrite)
  | some other =>
    have hother := List.mem_of_find?_eq_some hfind
    have hfound := List.find?_some hfind
    have hsymm : Std.Symm fun left right : WriteResult =>
        ¬ ((left.name == module.name) = true ∧ (right.name == module.name) = true) :=
      ⟨fun _ _ hnot hboth => hnot hboth.symm⟩
    congr 1
    by_contra hne
    exact hpairs.forall hother hwrite hne ⟨hfound, hname⟩

theorem describes {module : Module} (hmodule : module ∈ unpacked.table.modules) :
    ModuleReport.Describes unpacked.table unpacked.writes module
      (Report.entryOf unpacked.table unpacked.writes module) := by
  refine ⟨rfl, rfl, rfl, rfl, rfl, rfl, fun hlast write hwrite hname => ?_, ?_⟩
  · simp only [Report.entryOf, if_pos hlast, hrun.find?_write hmodule hwrite hname]
    exact ⟨rfl, rfl⟩
  · rintro (hlast | hnone)
    · simp only [Report.entryOf, hlast, if_neg Bool.false_ne_true]
      exact ⟨rfl, rfl⟩
    · simp only [Report.entryOf, hnone, List.find?_nil, ite_self]
      exact ⟨rfl, rfl⟩

end Unpacked.IsRun

namespace Report

theorem writeErrors_forall₂ (writes : List WriteResult) :
    List.Forall₂ (fun write line => ∃ error, write.error? = some error ∧
        line = write.path.toText ++ ": " ++ error)
      (writes.filter fun write => !write.isSuccess) (writes.flatMap writeErrors) := by
  have hlines := forall₂_toList writes fun write =>
    write.error?.map fun error => write.path.toText ++ ": " ++ error
  have hfailed : ∀ write : WriteResult,
      (write.error?.map fun error => write.path.toText ++ ": " ++ error).isSome =
        !write.isSuccess := by
    intro write
    cases hfault : write.fault? <;> simp [WriteResult.error?, WriteResult.isSuccess, hfault]
  simp only [hfailed] at hlines
  refine hlines.imp fun write line hline => ?_
  obtain ⟨error, herror, rfl⟩ := Option.map_eq_some_iff.1 hline
  exact ⟨error, herror, rfl⟩

theorem renderWarnings_forall₂ (modules : List Module) :
    List.Forall₂ (fun module line => ∃ error, module.error? = some error ∧
        line = "module " ++ toString module.id ++ " (" ++ module.name.display
          ++ ") rendered empty: " ++ error)
      (modules.filter fun module => module.error?.isSome) (modules.flatMap renderWarnings) := by
  have hlines := forall₂_toList modules fun module => module.error?.map fun error =>
    "module " ++ toString module.id ++ " (" ++ module.name.display ++ ") rendered empty: " ++ error
  simp only [Option.isSome_map] at hlines
  refine hlines.imp fun module line hline => ?_
  obtain ⟨error, herror, rfl⟩ := Option.map_eq_some_iff.1 hline
  exact ⟨error, herror, rfl⟩

theorem all_isSuccess_iff {writes : List WriteResult} :
    writes.all WriteResult.isSuccess = true ↔ writes.flatMap writeErrors = [] := by
  simp [writeErrors, WriteResult.isSuccess, WriteResult.error?]

theorem sharingWarnings_eq {modules files replaced : Nat} (hcount : replaced + files = modules) :
    sharingWarnings modules files =
      if replaced = 0 then []
      else [toString replaced ++ " module(s) share a name with a later module"] := by
  obtain rfl : modules - files = replaced := by omega
  rw [sharingWarnings]
  by_cases hnone : modules - files = 0
  · rw [if_pos hnone, if_neg (by omega)]
  · rw [if_neg hnone, if_pos (by omega)]

end Report

/-- The report of a run accounts for the run.  It has one entry for each module, in order, with
what is known of it.  There is one write for each name, and the last module of the name has its
path and success, the earlier ones have none.  There is one error for each write that failed, so
that a run is a success exactly if there are none.  There is one warning that counts the modules
whose file went to a later one, if there are any, and one for each module that could not be
rendered. -/
theorem unpack_keeps_books
    (hunpack : outcome (unpack tools options bundle) session = (.ok unpacked, after)) :
    unpacked.KeepsBooks options := by
  have hrun := unpack_isRun hunpack
  obtain ⟨wrapper, hbuilt⟩ := hrun.built
  refine ⟨?_, hrun.writes_eq_nil, fun hlists => ?_, ?_, fun hlists module hmodule => ?_, ?_, ?_,
    ⟨_, ?_, Report.renderWarnings_forall₂ _⟩, repeats_of_replaced⟩
  · rw [hrun.report_eq, Report.ofRun, List.forall₂_map_right_iff, List.forall₂_same]
    exact fun module hmodule => hrun.describes hmodule
  · rw [hbuilt.filter_first]
    exact hrun.forall₂_writes hlists
  · exact hrun.pairwise_writes (fun left right => (left == right) = false)
      (firstUses_pairwise unpacked.table.modules)
  · obtain ⟨first, hfirst, hname⟩ := hbuilt.exists_firstUse_name hmodule
    have hmem : first.name ∈ unpacked.writes.map fun write => write.name := by
      rw [← hrun.map_name_writes hlists]
      exact List.mem_map_of_mem hfirst
    obtain ⟨write, hwrite, hwriteName⟩ := List.mem_map.1 hmem
    exact ⟨write, hwrite, hwriteName.trans hname⟩
  · rw [hrun.report_eq]
    exact Report.writeErrors_forall₂ unpacked.writes
  · rw [hrun.report_eq]
    exact Report.all_isSuccess_iff
  · have hcount := hbuilt.length_replaced
    rw [← hrun.length_files] at hcount
    rw [hrun.report_eq, Report.ofRun, Report.sharingWarnings_eq hcount]
    simp only [List.length_eq_zero_iff]

/-- The second module has no export and gets the name that the first one has asked for. -/
theorem unpack_keeps_books_shared : ∃ unpacked,
    unpackModules [Build.exporting "module-1", Build.function [] []] =
      (.ok unpacked, (unpackModules [Build.exporting "module-1", Build.function [] []]).2) ∧
    unpacked.KeepsBooks { directory := Path.ofText "out", formats := false } ∧
    (unpacked.report.modules.map fun entry => (entry.id, entry.path, entry.written)) =
      [(0, none, false), (1, some "out/module-1.js", true)] ∧
    unpacked.report.warnings = ["1 module(s) share a name with a later module"] := by
  have hfacts : ∃ unpacked,
      unpackModules [Build.exporting "module-1", Build.function [] []] =
        (.ok unpacked, (unpackModules [Build.exporting "module-1", Build.function [] []]).2) ∧
      (unpacked.report.modules.map fun entry => (entry.id, entry.path, entry.written)) =
        [(0, none, false), (1, some "out/module-1.js", true)] ∧
      unpacked.report.warnings = ["1 module(s) share a name with a later module"] := by
    apply exists_unpackModules
    decide +kernel
  obtain ⟨unpacked, hunpacked, hreport⟩ := hfacts
  exact ⟨unpacked, hunpacked, unpack_keeps_books hunpacked, hreport⟩

end Debundle
