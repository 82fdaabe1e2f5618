import Debundle.Proofs.Naming.Candidate
import Debundle.Proofs.Script.Build
import Debundle.Proofs.Tree.Walk

/-!
# One name for each exporting assignment

The recursion that gathers the names of a module carries the names found so far through every
array and every node.  It is the run of one step over the nodes as a walk meets them, and that
step adds one free name for an assignment to an export path and nothing for any other node.
-/

namespace Debundle.Value

open Attempt

variable {node : Value} {found names : List Value}

/-- The path of one side of an assignment; a side that is missing has the empty one. -/
def sidePath (node : Value) (key : String) : Except Fault Value :=
  (node.lookup key).elim (.ok (.text "")) path

/-- An assignment to an export path. -/
def isExport (node : Value) : Bool :=
  decide (node.kind = .assignmentExpression) &&
    match node.sidePath "left" with
    | .ok (.text path) => isExportsPath path
    | _ => false

/-- An assignment has a text for a path on its left, and one that exports has a path on its
right that can be a key. -/
def HasPaths (node : Value) : Prop :=
  node.kind = .assignmentExpression →
    (∃ path, node.sidePath "left" = .ok (.text path)) ∧
      (node.isExport = true → ∃ base, node.sidePath "right" = .ok base ∧ base.isKey = true)

/-- The name that an exporting assignment asks for. -/
def exportBase (node : Value) : Value :=
  match node.sidePath "right" with
  | .ok base => base
  | .error _ => .text ""

/-- The names found, and a free spelling of one more. -/
def addName (found : List Value) (base : Value) : List Value :=
  found ++ [uniqueName base found]

theorem isExport_iff : node.isExport = true ↔ node.kind = .assignmentExpression ∧
    ∃ path, node.sidePath "left" = .ok (.text path) ∧ isExportsPath path = true := by
  simp only [isExport, Bool.and_eq_true, decide_eq_true_eq]
  refine and_congr_right fun _ => ?_
  cases hleft : node.sidePath "left" with
  | error fault => simp
  | ok left => cases left <;> simp

variable {path tag : String} {value : Value} {fields : Fields}

theorem isExportsPath_eq_false (hexport : node.isExport = false)
    (hkind : node.kind = .assignmentExpression) (hleft : node.sidePath "left" = .ok (.text path)) :
    isExportsPath path = false := by
  by_contra hpath
  have := isExport_iff.2 ⟨hkind, path, hleft, by simpa using hpath⟩
  simp [hexport] at this

theorem asPath_eq_ok_iff : value.asPath = .ok path ↔ value = .text path := by
  cases value <;> simp [asPath]

theorem asKey_fixed_eq_ok_iff {key : Value} :
    value.asKey .fixed = .ok key ↔ value.isKey = true ∧ value = key := by
  simp only [asKey]
  by_cases hkey : value.isKey = true <;> simp [hkey]

/-! ## One step -/

/-- What a walk does at one node. -/
def propose : Value → List Value → Except Fault (List Value)
  | .node tag fields, found => proposal tag fields found
  | _, found => .ok found

theorem proposal_of_export (hexport : (Value.node tag fields).isExport = true) :
    proposal tag fields found = .ok names ↔
      ∃ base, (Value.node tag fields).sidePath "right" = .ok base ∧ base.isKey = true ∧
        names = addName found base := by
  obtain ⟨hkind, path, hleft, hpath⟩ := isExport_iff.1 hexport
  simp only [sidePath] at hleft
  simp only [proposal, hkind, if_true, hleft, asPath, ok_bind, hpath,
    bind_eq_ok_iff, pure_eq_ok_iff, asKey_fixed_eq_ok_iff, sidePath, addName]
  constructor
  · rintro ⟨base, hright, key, ⟨hkey, rfl⟩, hnames⟩
    exact ⟨base, hright, hkey, hnames.symm⟩
  · rintro ⟨base, hright, hkey, hnames⟩
    exact ⟨base, hright, base, ⟨hkey, rfl⟩, hnames.symm⟩

theorem proposal_of_not_export (hexport : (Value.node tag fields).isExport = false) :
    proposal tag fields found = .ok names ↔ (Value.node tag fields).HasPaths ∧ names = found := by
  by_cases hkind : (Value.node tag fields).kind = .assignmentExpression
  · have hpaths : (Value.node tag fields).HasPaths ↔
        ∃ path, (Value.node tag fields).sidePath "left" = .ok (.text path) := by
      simp [HasPaths, hkind, hexport]
    simp only [hpaths, proposal, hkind, if_true, sidePath, bind_eq_ok_iff, asPath_eq_ok_iff]
    constructor
    · rintro ⟨left, hleft, path, rfl, hnames⟩
      simp only [isExportsPath_eq_false hexport hkind hleft] at hnames
      exact ⟨⟨path, hleft⟩, (pure_eq_ok_iff.1 hnames).symm⟩
    · rintro ⟨⟨path, hleft⟩, rfl⟩
      refine ⟨_, hleft, path, rfl, ?_⟩
      simp only [isExportsPath_eq_false hexport hkind hleft]
      rfl
  · have hpaths : (Value.node tag fields).HasPaths := fun h => absurd h hkind
    simp only [proposal, hkind, if_false, hpaths, true_and]
    exact pure_eq_ok_iff.trans eq_comm

/-- A step adds one name for an exporting assignment, and none for any other node. -/
theorem propose_eq_ok_iff : node.propose found = .ok names ↔
    node.HasPaths ∧ names = if node.isExport then addName found node.exportBase else found := by
  cases node with
  | node tag fields =>
    cases hexport : (Value.node tag fields).isExport with
    | false => simpa [propose] using proposal_of_not_export hexport
    | true =>
      obtain ⟨hkind, path, hleft, -⟩ := isExport_iff.1 hexport
      simp only [propose, proposal_of_export hexport, if_true]
      constructor
      · rintro ⟨base, hright, hkey, rfl⟩
        exact ⟨fun _ => ⟨⟨path, hleft⟩, fun _ => ⟨base, hright, hkey⟩⟩,
          by simp [exportBase, hright]⟩
      · rintro ⟨hpaths, rfl⟩
        obtain ⟨base, hright, hkey⟩ := (hpaths hkind).2 hexport
        exact ⟨base, hright, hkey, by simp [exportBase, hright]⟩
  | _ =>
    constructor
    · intro h
      cases h
      exact ⟨(by cases ·), rfl⟩
    · rintro ⟨-, rfl⟩
      rfl

/-! ## A whole run -/

mutual

/-- Gathering names is one step after another over the nodes in the order of a walk. -/
theorem exportNames_eq_foldlM (value : Value) (found : List Value) :
    value.exportNames found =
      value.preorder.foldlM (fun found node => node.propose found) found := by
  cases value with
  | array items => exact exportNames_ofItems_eq_foldlM items found
  | node tag fields =>
    rw [exportNames, preorder, List.foldlM_cons]
    exact congrArg _ (funext fun found => exportNames_ofFields_eq_foldlM fields found)
  | _ => rfl
termination_by structural value

theorem exportNames_ofItems_eq_foldlM (items : List Value) (found : List Value) :
    exportNames.ofItems items found =
      (preorder.ofItems items).foldlM (fun found node => node.propose found) found := by
  cases items with
  | nil => rfl
  | cons item rest =>
    rw [exportNames.ofItems, preorder.ofItems, List.foldlM_append, exportNames_eq_foldlM item]
    exact congrArg _ (funext fun found => exportNames_ofItems_eq_foldlM rest found)
termination_by structural items

theorem exportNames_ofFields_eq_foldlM (fields : List (String × Value)) (found : List Value) :
    exportNames.ofFields fields found =
      (preorder.ofFields fields).foldlM (fun found node => node.propose found) found := by
  cases fields with
  | nil => rfl
  | cons entry rest =>
    obtain ⟨key, value⟩ := entry
    rw [exportNames.ofFields, preorder.ofFields, List.foldlM_append, exportNames_eq_foldlM value]
    exact congrArg _ (funext fun found => exportNames_ofFields_eq_foldlM rest found)
termination_by structural fields

end

theorem foldlM_propose_eq_ok_iff {nodes : List Value} :
    nodes.foldlM (fun found node => node.propose found) found = .ok names ↔
      (∀ node ∈ nodes, node.HasPaths) ∧
        names = ((nodes.filter isExport).map exportBase).foldl addName found := by
  induction nodes generalizing found with
  | nil =>
    rw [List.foldlM_nil, pure_eq_ok_iff]
    simp [eq_comm]
  | cons node rest ih =>
    simp only [List.foldlM_cons, bind_eq_ok_iff, propose_eq_ok_iff, ih, List.forall_mem_cons]
    cases hexport : node.isExport <;> simp [hexport, and_assoc]

theorem exportNames_eq_ok_iff : value.exportNames found = .ok names ↔
    (∀ node ∈ value.walk, node.HasPaths) ∧
      names = ((value.walk.filter isExport).map exportBase).foldl addName found := by
  rw [exportNames_eq_foldlM, foldlM_propose_eq_ok_iff, walk_eq_preorder]

/-! ## The names of a run -/

/-- The first spelling of a name that is not among the earlier ones. -/
def IsFirstFree (base : Value) (earlier : List Value) (name : Value) : Prop :=
  ∃ number, name = numberedName base number ∧ earlier.contains name = false ∧
    ∀ smaller < number, earlier.contains (numberedName base smaller) = true

theorem isFirstFree_uniqueName (base : Value) (earlier : List Value) :
    IsFirstFree base earlier (uniqueName base earlier) := by
  obtain ⟨number, -, hname, hfree, hsmaller⟩ := uniqueName_eq_first base earlier
  exact ⟨number, hname, hname ▸ hfree, hsmaller⟩

/-- A run keeps the names it starts with and adds the first free spelling of each name asked
for. -/
theorem foldl_addName (bases found : List Value) :
    ∃ fresh, bases.foldl addName found = found ++ fresh ∧ fresh.length = bases.length ∧
      ∀ earlier name later, fresh = earlier ++ name :: later →
        ∃ base, bases[earlier.length]? = some base ∧
          IsFirstFree base (found ++ earlier) name := by
  induction bases generalizing found with
  | nil => exact ⟨[], by simp, rfl, by simp⟩
  | cons base rest ih =>
    obtain ⟨fresh, hnames, hlength, hfresh⟩ := ih (addName found base)
    refine ⟨uniqueName base found :: fresh, ?_, by simp [hlength], ?_⟩
    · rw [List.foldl_cons, hnames, addName, List.append_assoc, List.singleton_append]
    · intro earlier name later hsplit
      cases earlier with
      | nil =>
        obtain ⟨rfl, -⟩ := List.cons.inj hsplit
        exact ⟨base, rfl, by simpa using isFirstFree_uniqueName base found⟩
      | cons first earlier =>
        obtain ⟨rfl, hrest⟩ := List.cons.inj hsplit
        obtain ⟨next, hnext, hfree⟩ := hfresh earlier name later hrest
        exact ⟨next, hnext, by simpa [addName] using hfree⟩

theorem sidePath_eq_exportBase (hpaths : node.HasPaths) (hexport : node.isExport = true) :
    node.sidePath "right" = .ok node.exportBase := by
  obtain ⟨base, hright, -⟩ := (hpaths (isExport_iff.1 hexport).1).2 hexport
  simp [exportBase, hright]

/-- The first of the names is the path that the first exporting assignment has on its right, and
no number is put behind it. -/
theorem headD_foldl_addName (bases : List Value) :
    (bases.foldl addName []).headD (.text "") = bases.headD (.text "") := by
  cases bases with
  | nil => rfl
  | cons base rest =>
    obtain ⟨fresh, hnames, -⟩ := foldl_addName rest (addName [] base)
    rw [List.foldl_cons, hnames]
    rfl

/-- The names of a tree are the given ones followed by one new name for each exporting
assignment in the order of a walk, the path on its right or that path with the first number that
makes it free.  They are found exactly when the paths can be read.  The name of a module is the
path of the first exporting assignment of its body. -/
theorem exportNames_one_name_per_export :
    (∀ (value : Value) (found : List Value),
      ((∃ names, value.exportNames found = .ok names) ↔ ∀ node ∈ value.walk, node.HasPaths) ∧
      ∀ names, value.exportNames found = .ok names →
        ∃ fresh, names = found ++ fresh ∧
          fresh.length = (value.walk.filter isExport).length ∧
          ∀ earlier name later, fresh = earlier ++ name :: later →
            ∃ node base, (value.walk.filter isExport)[earlier.length]? = some node ∧
              node.sidePath "right" = .ok base ∧ IsFirstFree base (found ++ earlier) name) ∧
    (∀ module body : Value, module.isFunctionModule = true → module.lookup "body" = some body →
      ((∃ name, module.primaryExport = .ok name) ↔ ∀ node ∈ body.walk, node.HasPaths) ∧
      ∀ name, module.primaryExport = .ok name →
        (body.walk.filter isExport = [] ∧ name = .text "") ∨
          ∃ first others, body.walk.filter isExport = first :: others ∧
            first.sidePath "right" = .ok name) := by
  refine ⟨fun value found => ⟨?_, fun names hnames => ?_⟩, fun module body hmodule hbody => ?_⟩
  · simp [exportNames_eq_ok_iff]
  · obtain ⟨hpaths, rfl⟩ := exportNames_eq_ok_iff.1 hnames
    obtain ⟨fresh, hfound, hlength, hfresh⟩ :=
      foldl_addName ((value.walk.filter isExport).map exportBase) found
    refine ⟨fresh, hfound, by simpa using hlength, fun earlier name later hsplit => ?_⟩
    obtain ⟨base, hbase, hfree⟩ := hfresh earlier name later hsplit
    rw [List.getElem?_map, Option.map_eq_some_iff] at hbase
    obtain ⟨node, hnode, rfl⟩ := hbase
    have hmem := List.mem_filter.1 (List.mem_of_getElem? hnode)
    exact ⟨node, _, hnode, sidePath_eq_exportBase (hpaths node hmem.1) hmem.2, hfree⟩
  · have hprimary : ∀ name, module.primaryExport = .ok name ↔
        ∃ names, body.exportNames [] = .ok names ∧ names.headD (.text "") = name := by
      intro name
      simp only [primaryExport, hmodule, if_true, hbody, bind_eq_ok_iff, pure_eq_ok_iff]
    constructor
    · simp [hprimary, exportNames_eq_ok_iff]
    · intro name hname
      obtain ⟨names, hnames, rfl⟩ := (hprimary name).1 hname
      obtain ⟨hpaths, rfl⟩ := exportNames_eq_ok_iff.1 hnames
      rw [headD_foldl_addName]
      cases hexports : body.walk.filter isExport with
      | nil => exact .inl ⟨rfl, rfl⟩
      | cons first others =>
        have hmem := List.mem_filter.1 (hexports ▸ List.mem_cons_self : first ∈ _)
        exact .inr ⟨first, others, rfl, sidePath_eq_exportBase (hpaths first hmem.1) hmem.2⟩

/-- The assignment `module.exports = exports = Foo`, of which the outer one has no path on its
right. -/
def nestedExports : Value :=
  Build.assign (Build.member (Build.name "module") "exports")
    (Build.assign (Build.name "exports") (Build.name "Foo"))

theorem exportNames_one_name_per_export_nested :
    (nestedExports.exportNames [.text "Foo"] =
        .ok [.text "Foo", .text "", .text "Foo__1"] ∧
      ∃ fresh, [.text "Foo", .text "", .text "Foo__1"] = [.text "Foo"] ++ fresh ∧
        fresh.length = (nestedExports.walk.filter isExport).length ∧
        ∀ earlier name later, fresh = earlier ++ name :: later →
          ∃ node base, (nestedExports.walk.filter isExport)[earlier.length]? = some node ∧
            node.sidePath "right" = .ok base ∧
              IsFirstFree base ([.text "Foo"] ++ earlier) name) ∧
    ((Build.function [] [Build.perform nestedExports]).isFunctionModule = true ∧
      (Build.function [] [Build.perform nestedExports]).primaryExport = .ok (.text "") ∧
      (((Build.block [Build.perform nestedExports]).walk.filter isExport = [] ∧
          Value.text "" = .text "") ∨
        ∃ first others,
          (Build.block [Build.perform nestedExports]).walk.filter isExport = first :: others ∧
            first.sidePath "right" = .ok (.text ""))) := by
  have hnames : nestedExports.exportNames [.text "Foo"] =
      .ok [.text "Foo", .text "", .text "Foo__1"] := by decide +kernel
  have hmodule : (Build.function [] [Build.perform nestedExports]).isFunctionModule = true := rfl
  have hname : (Build.function [] [Build.perform nestedExports]).primaryExport =
      .ok (.text "") := by decide +kernel
  exact ⟨⟨hnames, (exportNames_one_name_per_export.1 nestedExports _).2 _ hnames⟩, hmodule, hname,
    (exportNames_one_name_per_export.2 _ _ hmodule rfl).2 _ hname⟩

end Debundle.Value
