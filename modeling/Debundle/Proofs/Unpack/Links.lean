import Debundle.Proofs.Unpack.Report

/-!
# Where rewritten calls lead

A call of `require` is pointed at a path that is taken from the output directory, but is
read from the directory of the file that holds the call.  Both lead to the same file if the
two directories are the same as far as the name does not climb.
-/

namespace Debundle

open Procedure Renaming

variable {directory : Path} {requiring name : Value} {current : Location}

/-- The file that `./name` means in another file. -/
def requiredPath (file : Path) (name : Value) : Path :=
  file.parent.join ("./" ++ name.display ++ ".js")

/-- The steps from where the name of a module is taken to its file. -/
def moduleSteps (name : Value) : List String :=
  (Path.ofText (name.display ++ ".js")).steps

/-- How many levels the name of a module climbs above where it is taken from. -/
def nameClimb (name : Value) : Nat :=
  (Path.Route.ofSteps (moduleSteps name)).climb

/-- Where the name of a module is taken from: the output directory, or the top directory if
the name is absolute. -/
def nameHome (directory : Path) (current : Location) (name : Value) : Location :=
  if (Path.ofText (name.display ++ ".js")).root.isEmpty then directory.resolve current else []

theorem resolve_modulePath :
    (modulePath directory name).resolve current =
      (moduleSteps name).foldl Path.follow (nameHome directory current name) := by
  rw [modulePath, Path.join, nameHome, moduleSteps]
  by_cases hroot : (Path.ofText (name.display ++ ".js")).root.isEmpty = true
  · rw [if_pos hroot, if_pos hroot, Path.resolve_append]
  · rw [if_neg hroot, if_neg hroot, Path.resolve, Path.start, if_neg hroot]

theorem resolve_requiredPath (file : Path) :
    (requiredPath file name).resolve current =
      (moduleSteps name).foldl Path.follow (file.parent.resolve current) := by
  rw [requiredPath, String.append_assoc, Path.resolve_join_here, moduleSteps]

/-- The path leads to the file of the module exactly if the directories from which the two
are taken are the same as far as the name does not climb. -/
theorem resolve_requiredPath_eq_iff (file : Path) :
    (requiredPath file name).resolve current = (modulePath directory name).resolve current ↔
      (file.parent.resolve current).rdrop (nameClimb name) =
        (nameHome directory current name).rdrop (nameClimb name) := by
  rw [resolve_requiredPath, resolve_modulePath, Path.foldl_follow_eq_iff]
  rfl

/-- The file of a module whose name has no slash lies in the output directory itself. -/
theorem parent_modulePath (hslash : '/' ∉ requiring.display.toList) :
    (modulePath directory requiring).parent = directory := by
  have hlength : (requiring.display ++ ".js").length = requiring.display.length + 3 :=
    String.length_append _ _
  have hstep : Path.IsPlainStep (requiring.display ++ ".js") := by
    refine ⟨fun hempty => ?_, fun hpoint => ?_, by simpa using hslash⟩
    · rw [hempty] at hlength
      cases hlength
    · rw [hpoint] at hlength
      cases hlength
  rw [modulePath, Path.join, Path.ofText_of_isPlainStep hstep]
  simp [Path.parent]

/-- The name of a module is taken from the output directory unless it starts with a slash. -/
theorem nameHome_eq (hhead : name.display.toList.head? ≠ some '/') :
    nameHome directory current name = directory.resolve current := by
  have hroot : (Path.ofText (name.display ++ ".js")).root = "" := by
    apply Path.root_ofText
    rw [String.toList_append]
    cases hchars : name.display.toList with
    | nil => decide
    | cons char rest => simpa [hchars] using hhead
  rw [nameHome, hroot]
  rfl

variable {tools : Tools} {options : UnpackOptions} {bundle : Bundle} {session after : Session}
  {unpacked : Unpacked}

/-- From the file of one module, the name of another leads to the file of that one exactly if
the directory of the first file and the directory that the name is taken from are the same as
far as the name does not climb.  It does so in a file whose module has no slash in its name, for
each name that does not start with one.  Each call of `require` that is rewritten is rewritten
to the name of a module. -/
theorem unpack_require_leads_iff
    (hunpack : outcome (unpack tools options bundle) session = (.ok unpacked, after)) :
    (∀ own ∈ unpacked.writes, ∀ linked ∈ unpacked.writes, ∀ current,
      ((requiredPath own.path linked.name).resolve current = linked.path.resolve current ↔
        (own.path.parent.resolve current).rdrop (nameClimb linked.name) =
          (nameHome options.directory current linked.name).rdrop (nameClimb linked.name)) ∧
      ('/' ∉ own.name.display.toList → linked.name.display.toList.head? ≠ some '/' →
        (requiredPath own.path linked.name).resolve current = linked.path.resolve current)) ∧
    ∀ module ∈ unpacked.table.modules, module.body.isFunctionModule = true →
      ∃ tag fields body params roles processed, module.body = .node tag fields ∧
        Fields.get? fields "body" = some body ∧
        (Value.node tag fields).listAt "params" = .ok params ∧
        Roles.ofParams (params.map Part.value) = .ok roles ∧
        module.processed = .node tag (Fields.set fields "body" processed) ∧
        ∀ position name, RequiresAt unpacked.table.registry roles body position name →
          Visited unpacked.table.registry roles body position →
          processed.at? (position ++ [.field "arguments"]) = some (.array [requirePath name]) ∧
          ∃ target ∈ unpacked.table.modules, target.name = name := by
  obtain ⟨⟨wrapper, hbuilt⟩, -, ⟨before, hrun⟩, -⟩ := unpack_isRun hunpack
  constructor
  · intro own hown linked hlinked current
    rw [hrun.path_eq hown, hrun.path_eq hlinked]
    refine ⟨resolve_requiredPath_eq_iff _, fun hslash hhead => ?_⟩
    rw [resolve_requiredPath_eq_iff, parent_modulePath hslash, nameHome_eq hhead]
  · intro module hmodule hfunction
    obtain ⟨renamed, hrenamed, hprocessed, -⟩ := (hbuilt.finished module hmodule).renamed
    obtain ⟨-, tag, fields, body, hnode, hbody⟩ := Value.isFunctionModule_cases hfunction
    rw [hnode] at hfunction hrenamed hprocessed
    obtain ⟨params, roles, hparams, hroles, happly, hrename⟩ :=
      renameModule_eq_ok hfunction hbody hrenamed
    refine ⟨tag, fields, body, params, roles, _, hnode, hbody, hparams, hroles,
      hprocessed.trans happly, fun position name hrequires hvisited => ⟨?_, ?_⟩⟩
    · exact hrename.at?_of_change (.argument hrequires hvisited)
    · obtain ⟨-, -, target, htarget, -, hname⟩ :=
        ((hbuilt.linked hrename).rewritten position name).1 hrequires
      exact ⟨target, htarget, hname⟩

/-- The module function `function (e, t, n) { e.exports = "value"; n(id); }`. -/
def requiringExport (value : String) (id : Int) : Value :=
  Build.function [Build.name "e", Build.name "t", Build.name "n"]
    [Build.perform (Build.assign (Build.member (Build.name "e") "exports") (Build.text value)),
      Build.perform (Build.call (Build.name "n") [Build.number id])]

/-- The call in such a function, from the body of the function. -/
def requiringCall : Position :=
  [.field "body", .item 1, .field "expression"]

theorem requiringExport_requires {registry : Registry} {roles : Roles} {value : String} {id : Int}
    {tag : String} {fields : Fields} {params : List (Part (.node tag fields))} {body : Value}
    (hnode : requiringExport value id = .node tag fields)
    (hbody : Fields.get? fields "body" = some body)
    (hparams : (Value.node tag fields).listAt "params" = .ok params)
    (hroles : Roles.ofParams (params.map Part.value) = .ok roles)
    (hresolve : registry.resolve (.int id) = .ok (some name)) :
    RequiresAt registry roles body requiringCall name ∧
      Visited registry roles body requiringCall := by
  cases hnode
  cases hbody
  have hrole : roles.role? "n" = some .require := by
    obtain ⟨parts, hparts, hvalues⟩ := Value.listAt_of_array
      (show (requiringExport value id).lookup "params" =
        some (.array [Build.name "e", Build.name "t", Build.name "n"]) from rfl)
    cases hparams.symm.trans hparts
    cases (congrArg Roles.ofParams hvalues).symm.trans hroles
    decide
  constructor
  · refine (requiresAt_cons_iff rfl (HoldInside.self rfl)).2 ?_
    refine (requiresAt_cons_iff rfl (HoldInside.self rfl)).2 ?_
    refine (requiresAt_cons_iff rfl (HoldInside.self rfl)).2 ?_
    exact requiresAt_nil_iff.2 ⟨"n", ⟨rfl, ⟨_, rfl, rfl, rfl⟩, ⟨_, rfl, rfl, hresolve⟩⟩, hrole⟩
  · refine (visited_cons_iff rfl (HoldInside.self rfl)).2 ⟨⟨rfl, by simp⟩, ?_⟩
    refine (visited_cons_iff rfl (HoldInside.self rfl)).2 ⟨⟨rfl, by simp⟩, ?_⟩
    exact (visited_cons_iff rfl (HoldInside.self rfl)).2 ⟨⟨rfl, by simp⟩, visited_nil⟩

/-- The call in the file of `Bar` leads to the file of `lib/util` below it. -/
theorem unpack_require_leads_iff_below :
    ∃ unpacked after module processed,
      unpackModules [requiringExport "Bar" 1, Build.exporting "lib/util"] = (.ok unpacked, after) ∧
      (unpacked.writes.map fun write => (write.name, write.isSuccess)) =
        [(.text "Bar", true), (.text "lib/util", true)] ∧
      module ∈ unpacked.table.modules ∧ module.name = .text "Bar" ∧
      module.processed.lookup "body" = some processed ∧
      processed.at? (requiringCall ++ [.field "arguments"]) =
        some (.array [requirePath (.text "lib/util")]) ∧
      ∀ own ∈ unpacked.writes, own.name = .text "Bar" →
      ∀ linked ∈ unpacked.writes, linked.name = .text "lib/util" → ∀ current,
        (requiredPath own.path (.text "lib/util")).resolve current =
          linked.path.resolve current := by
  obtain ⟨unpacked, hunpacked, hmodules, hnames, hwrites⟩ : ∃ unpacked,
      unpackModules [requiringExport "Bar" 1, Build.exporting "lib/util"] = (.ok unpacked, _) ∧
      (unpacked.table.modules.map fun module => (module.name, module.body)) =
        [(.text "Bar", requiringExport "Bar" 1), (.text "lib/util", Build.exporting "lib/util")] ∧
      unpacked.table.registry.names = [(0, .text "Bar"), (1, .text "lib/util")] ∧
      (unpacked.writes.map fun write => (write.name, write.isSuccess)) =
        [(.text "Bar", true), (.text "lib/util", true)] := by
    apply exists_unpackModules
    decide +kernel
  obtain ⟨module, rest, hentries, hmodule, -⟩ := List.map_eq_cons_iff.1 hmodules
  rw [Prod.mk.injEq] at hmodule
  obtain ⟨hname, hbody⟩ := hmodule
  have hmem : module ∈ unpacked.table.modules := by simp [hentries]
  obtain ⟨hleads, hrewritten⟩ := unpack_require_leads_iff hunpacked
  obtain ⟨tag, fields, body, params, roles, processed, hnode, hget, hparams, hroles, hprocessed,
    hcalls⟩ := hrewritten module hmem (hbody ▸ rfl)
  have hresolve : unpacked.table.registry.resolve (.int 1) = .ok (some (.text "lib/util")) :=
    Registry.resolve_eq_some_iff.2 ⟨1, rfl, by rw [Registry.name?, hnames]; rfl⟩
  obtain ⟨hrequires, hvisited⟩ := requiringExport_requires (hbody.symm.trans hnode) hget hparams
    hroles hresolve
  obtain ⟨hargument, -⟩ := hcalls requiringCall _ hrequires hvisited
  refine ⟨unpacked, _, module, processed, hunpacked, hwrites, hmem, hname, ?_, hargument, ?_⟩
  · rw [hprocessed, Value.lookup_node, Fields.get?_set, if_pos rfl]
  · intro own hown hownName linked hlinked hlinkedName current
    rw [← hlinkedName]
    refine (hleads own hown linked hlinked current).2 ?_ ?_
    · rw [hownName]
      decide
    · rw [hlinkedName]
      decide

/-- The call in the file of `lib/util` leads to a file beside it, which is not the file of
`Foo`. -/
theorem unpack_require_misses_above :
    ∃ unpacked after,
      unpackModules [requiringExport "lib/util" 1, Build.exporting "Foo"] =
        (.ok unpacked, after) ∧
      unpacked.files =
        [(.text "lib/util", .ofText "module.exports = 'lib/util';\nrequire('./Foo');\n"),
          (.text "Foo", .ofText "module.exports = 'Foo';\n")] ∧
      (unpacked.writes.map fun write => (write.name, write.path.toText, write.isSuccess)) =
        [(.text "lib/util", "out/lib/util.js", true), (.text "Foo", "out/Foo.js", true)] ∧
      (requiredPath (Path.ofText "out/lib/util.js") (.text "Foo")).resolve [] =
        ["out", "lib", "Foo.js"] ∧
      (Path.ofText "out/Foo.js").resolve [] = ["out", "Foo.js"] := by
  obtain ⟨unpacked, hunpacked, hfiles, hwrites⟩ : ∃ unpacked,
      unpackModules [requiringExport "lib/util" 1, Build.exporting "Foo"] = (.ok unpacked, _) ∧
      unpacked.files =
        [(.text "lib/util", .ofText "module.exports = 'lib/util';\nrequire('./Foo');\n"),
          (.text "Foo", .ofText "module.exports = 'Foo';\n")] ∧
      (unpacked.writes.map fun write => (write.name, write.path.toText, write.isSuccess)) =
        [(.text "lib/util", "out/lib/util.js", true), (.text "Foo", "out/Foo.js", true)] := by
    apply exists_unpackModules
    decide +kernel
  exact ⟨unpacked, _, hunpacked, hfiles, hwrites, by decide +kernel, by decide +kernel⟩

end Debundle
