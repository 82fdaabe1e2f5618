import Debundle.Proofs.Attempt
import Debundle.Proofs.Scope.Binding
import Debundle.Scope

/-!
# The names that the passes find

On well-formed scripts the passes that collect names never fail, and what they find can
be said in terms of the language.  The names of a pattern are the names that it binds.
The names hoisted out of a value are those that its statements declare, together with
those that the functions inside it declare for themselves.
-/

namespace Debundle

/-- A collecting step finds the names that pass a test, and nothing else. -/
def Finds (step : Except Fault (List Value)) (test : String → Bool) : Prop :=
  ∃ names : List String, step = .ok (names.map .text) ∧
    ∀ name, name ∈ names ↔ test name = true

namespace Finds

variable {α : Type} {step other : Except Fault (List Value)} {test test' : String → Bool}

theorem congr (hfinds : Finds step test) (htest : ∀ name, test name = test' name) :
    Finds step test' := by
  rwa [← funext htest]

theorem nothing : Finds (.ok []) fun _ => false :=
  ⟨[], rfl, by simp⟩

theorem append (hfirst : Finds step test) (hsecond : Finds other test') :
    Finds (do let names ← step; return names ++ (← other))
      fun name => test name || test' name := by
  obtain ⟨names, rfl, hnames⟩ := hfirst
  obtain ⟨others, rfl, hothers⟩ := hsecond
  refine ⟨names ++ others, ?_, fun name => ?_⟩
  · rw [List.map_append]
    rfl
  · rw [List.mem_append, hnames, hothers, Bool.or_eq_true]

/-- What the items of a list are found to have is put together. -/
theorem flatten {items : List α} {collect : α → Except Fault (List Value)}
    {tests : α → String → Bool} (hitems : ∀ item ∈ items, Finds (collect item) (tests item)) :
    Finds (do return (← items.mapM collect).flatten)
      fun name => items.any fun item => tests item name := by
  induction items with
  | nil => exact nothing
  | cons item rest ih =>
    obtain ⟨own, hown, hfirst⟩ := hitems item List.mem_cons_self
    obtain ⟨names, hnames, hrest⟩ :=
      ih fun other hother => hitems other (List.mem_cons_of_mem _ hother)
    obtain ⟨lists, hlists, hflat⟩ := Attempt.bind_eq_ok_iff.1 hnames
    refine ⟨own ++ names, ?_, fun name => ?_⟩
    · rw [List.mapM_cons, hown, hlists, List.map_append, ← Attempt.pure_eq_ok_iff.1 hflat]
      rfl
    · rw [List.mem_append, hfirst, hrest]
      simp

end Finds

namespace Value

open Kind

variable {tag key : String} {fields : Fields} {slot : Slot}

/-- The text in the name of a well-formed identifier. -/
theorem exists_name (hfills : (Value.node tag fields).fills slot = true)
    (hkind : Kind.ofTag tag = .identifier) :
    ∃ text, Fields.get? fields "name" = some (.text text) := by
  obtain ⟨value, hget, hvalue⟩ :=
    exists_field hfills hkind (show Kind.slot .identifier "name" = .text from rfl) rfl
  cases value with
  | text text => exact ⟨text, hget⟩
  | node tag fields => simp [fills_node_iff, Slot.admits] at hvalue
  | array items => simp [fills_array_iff, Slot.items?] at hvalue
  | _ => simp [fills, Slot.takes] at hvalue

/-- A list in a field is found to have what its items are found to have. -/
theorem finds_list {collect : Part (.node tag fields) → Except Fault (List Value)}
    {items : List Value} (hget : Fields.get? fields key = some (.array items))
    (hfinds : ∀ part, part.value ∈ items →
      Finds (collect part) fun name => part.value.binds name) :
    Finds
      (do
        let parts ← (Value.node tag fields).listAt key
        return (← parts.mapM collect).flatten)
      fun name => (Value.array items).binds name := by
  obtain ⟨parts, hparts, rfl⟩ := listAt_of_array (lookup_node tag fields key ▸ hget)
  rw [hparts]
  have hflatten : Finds (do return (← parts.mapM collect).flatten)
      fun name => parts.any fun part => part.value.binds name :=
    .flatten fun part hpart => hfinds part (List.mem_map_of_mem hpart)
  refine hflatten.congr fun name => ?_
  rw [binds_array, List.any_map]
  rfl

/-- The binding field of a node that holds one pattern there. -/
theorem exists_bindingPart {kind : Kind} {kinds : List Kind}
    (hfills : (Value.node tag fields).fills slot = true) (hkind : Kind.ofTag tag = kind)
    (hfield : kind.bindingField? = some key) (hslot : kind.slot key = .one kinds)
    (hkinds : kinds ⊆ expressions ++ targets) :
    ∃ part, (Value.node tag fields).part? key = some part ∧
      part.value.fills (.optional (expressions ++ targets)) = true ∧
      ∀ name, part.value.binds name = (Value.node tag fields).binds name := by
  obtain ⟨target, hget, htarget⟩ := exists_field hfills hkind hslot rfl
  obtain ⟨part, hpart, rfl⟩ := exists_part (lookup_node tag fields key ▸ hget)
  refine ⟨part, hpart, fills_optional_of_subset hkinds (.inr htarget), fun name => ?_⟩
  exact (binds_node (by rw [hkind, hfield]) hget).symm

theorem bindingField?_of_pattern {kind : Kind} (hkind : kind ∈ expressions ++ targets) :
    kind.bindingField? = none ∨ kind = .assignmentPattern ∨ kind = .restElement ∨
      kind = .arrayPattern ∨ kind = .objectPattern := by
  revert kind
  decide

/-- A pattern is found to have the names that it binds. -/
theorem boundNames_finds (pattern : Value)
    (hfills : pattern.fills (.optional (expressions ++ targets)) = true) :
    Finds pattern.boundNames fun name => pattern.binds name := by
  have htargets : targets ⊆ expressions ++ targets := List.subset_append_right _ _
  cases pattern with
  | node tag fields =>
    rw [boundNames]
    split
    · rename_i hkind
      obtain ⟨text, htext⟩ := exists_name hfills hkind
      refine ⟨[text], ?_, fun name => ?_⟩
      · rw [name_eq_ok (lookup_node tag fields "name" ▸ htext)]
        rfl
      · rw [List.mem_singleton, binds_identifier hkind, htext, Option.some.injEq,
          Value.text.injEq, eq_comm]
    · rename_i hkind
      obtain ⟨part, hpart, hfills, hbinds⟩ := exists_bindingPart hfills hkind rfl rfl htargets
      have hsmaller := part.smaller
      rw [hpart]
      exact (boundNames_finds part.value hfills).congr hbinds
    · rename_i hkind
      obtain ⟨part, hpart, hfills, hbinds⟩ := exists_bindingPart hfills hkind rfl rfl htargets
      have hsmaller := part.smaller
      rw [hpart]
      exact (boundNames_finds part.value hfills).congr hbinds
    · rename_i hkind
      obtain ⟨elements, hget, helements⟩ := exists_field hfills hkind
        (show Kind.slot .arrayPattern "elements" = .holey targets from rfl) rfl
      obtain ⟨items, rfl, hitems⟩ := exists_items_of_fills helements rfl (by simp)
      have hfield : (Kind.ofTag tag).bindingField? = some "elements" := by
        rw [show Kind.ofTag tag = _ from hkind]
        rfl
      refine Finds.congr (finds_list hget fun part hpart => ?_)
        fun name => (binds_node hfield hget).symm
      have hsmaller := part.smaller
      exact boundNames_finds part.value
        (fills_optional_of_subset htargets (.inl (hitems part.value hpart)))
    · rename_i hkind
      obtain ⟨properties, hget, hproperties⟩ := exists_field hfills hkind
        (show Kind.slot .objectPattern "properties" = .many [.property, .restElement]
          from rfl) rfl
      obtain ⟨items, rfl, hitems⟩ := exists_items_of_fills hproperties rfl (by simp)
      have hfield : (Kind.ofTag tag).bindingField? = some "properties" := by
        rw [show Kind.ofTag tag = _ from hkind]
        rfl
      refine Finds.congr (finds_list hget fun part hmem => ?_)
        fun name => (binds_node hfield hget).symm
      obtain ⟨member, hsmaller⟩ := part
      have hmember := hitems member hmem
      obtain ⟨inner, held, rfl, hkinds⟩ := exists_node_of_fills hmember
      split
      · rename_i hproperty
        obtain ⟨target, htarget, hfills, hbinds⟩ :=
          exists_bindingPart hmember hproperty rfl rfl (List.Subset.refl _)
        have hinside := Nat.lt_trans target.smaller hsmaller
        rw [htarget]
        exact (boundNames_finds target.value hfills).congr hbinds
      · rename_i hproperty
        refine boundNames_finds _ (fills_node_iff.2 ⟨?_, (fills_node_iff.1 hmember).2⟩)
        rcases List.mem_pair.1 hkinds with hkind | hkind
        · exact absurd hkind hproperty
        · simp [Slot.admits, hkind, targets]
    · rename_i hidentifier hassignment hrest harray hobject
      refine Finds.nothing.congr fun name => (binds_eq_false hidentifier ?_).symm
      rcases bindingField?_of_pattern (Slot.mem_kinds_of_admits (fills_node_iff.1 hfills).1)
        with hnone | hkind | hkind | hkind | hkind
      · exact hnone
      · exact absurd hkind hassignment
      · exact absurd hkind hrest
      · exact absurd hkind harray
      · exact absurd hkind hobject
  | array items => simp [fills_array_iff, Slot.items?] at hfills
  | _ =>
    rw [boundNames]
    exact Finds.nothing
termination_by pattern.size

theorem boundNamesAt_finds (hpattern : ∀ pattern, Fields.get? fields key = some pattern →
      pattern.fills (.optional (expressions ++ targets)) = true) :
    Finds ((Value.node tag fields).boundNamesAt key)
      fun name => (Fields.get? fields key).any (binds name) := by
  rw [boundNamesAt, lookup_node]
  cases hget : Fields.get? fields key with
  | none => exact Finds.nothing
  | some pattern => exact boundNames_finds pattern (hpattern pattern hget)

/-- The parameters of a function are found to have the names that they bind. -/
theorem paramNames_finds (hfills : (Value.node tag fields).fills slot = true)
    (hfunction : (Kind.ofTag tag).isFunction = true) :
    Finds (Value.node tag fields).paramNames
      fun name => (Fields.get? fields "params").any (binds name) := by
  obtain ⟨params, hget, hparams⟩ := exists_field hfills rfl (slot_params hfunction) rfl
  obtain ⟨items, rfl, hitems⟩ := exists_items_of_fills hparams rfl (by simp)
  rw [hget, paramNames]
  exact finds_list hget fun part hpart => boundNames_finds part.value
    (fills_optional_of_subset (List.subset_append_right _ _) (.inr (hitems _ hpart)))

/-- A variable declaration is found to have the names that it declares for the whole
function. -/
theorem declaredNames_finds (hfills : (Value.node tag fields).fills slot = true)
    (hkind : Kind.ofTag tag = .variableDeclaration) :
    Finds (Value.node tag fields).declaredNames
      fun name => (Value.node tag fields).hoists name := by
  obtain ⟨declarations, hget, hdeclarations⟩ := exists_field hfills hkind
    (show Kind.slot .variableDeclaration "declarations" = .many [.variableDeclarator]
      from rfl) rfl
  obtain ⟨items, rfl, hitems⟩ := exists_items_of_fills hdeclarations rfl (by simp)
  have hfield : (Kind.ofTag tag).bindingField? = some "declarations" := by
    rw [hkind]
    rfl
  rw [declaredNames, lookup_node]
  split
  · rename_i hvar
    refine Finds.congr (finds_list hget fun part hmem => ?_) fun name => ?_
    · obtain ⟨declarator, hsmaller⟩ := part
      have hdeclarator := hitems declarator hmem
      obtain ⟨inner, held, rfl, hinner⟩ := exists_node_of_fills hdeclarator
      have hkind := List.mem_singleton.1 hinner
      obtain ⟨target, htarget, hfills⟩ := exists_field hdeclarator hkind
        (show Kind.slot .variableDeclarator "id" = .one targets from rfl) rfl
      refine (boundNamesAt_finds fun pattern hpattern => ?_).congr fun name => ?_
      · cases htarget.symm.trans hpattern
        exact fills_optional_of_subset (List.subset_append_right _ _) (.inr hfills)
      · rw [binds_node (by rw [hkind]; rfl) htarget, htarget, Option.any_some]
    · rw [Bool.eq_iff_iff, hoists_variableDeclaration hkind, binds_node hfield hget]
      exact ⟨fun hbinds => ⟨hvar, hbinds⟩, fun hboth => hboth.2⟩
  · rename_i hvar
    refine Finds.nothing.congr fun name => ?_
    rw [eq_comm, ← Bool.not_eq_true, hoists_variableDeclaration hkind]
    exact fun hboth => hvar hboth.1

/-- Whether a value declares the name, for the function it is part of or in a function
inside it. -/
def declares (name : String) (value : Value) : Bool :=
  value.hoists name || value.hoistsInside name

theorem ofItems_finds {items : List Value}
    (hitems : ∀ item ∈ items, Finds item.hoistedNames fun name => item.declares name) :
    Finds (hoistedNames.ofItems items) fun name => items.any (declares name) := by
  induction items with
  | nil => exact Finds.nothing
  | cons item rest ih =>
    rw [hoistedNames.ofItems]
    refine (Finds.append (hitems item List.mem_cons_self)
      (ih fun other hother => hitems other (List.mem_cons_of_mem _ hother))).congr ?_
    exact fun name => by rw [List.any_cons]

theorem ofFields_finds
    (hfields : ∀ entry ∈ fields, Finds entry.2.hoistedNames fun name => entry.2.declares name) :
    Finds (hoistedNames.ofFields fields)
      fun name => fields.any fun entry => entry.2.declares name := by
  induction fields with
  | nil => exact Finds.nothing
  | cons entry rest ih =>
    rw [hoistedNames.ofFields]
    refine (Finds.append (hfields entry List.mem_cons_self)
      (ih fun other hother => hfields other (List.mem_cons_of_mem _ hother))).congr ?_
    exact fun name => by rw [List.any_cons]

theorem declares_array (name : String) (items : List Value) :
    (Value.array items).declares name = items.any (declares name) := by
  rw [declares, hoists_array, hoistsInside_array, Bool.eq_iff_iff]
  simp [declares, and_or_left, exists_or]

/-- What the fields of a node declare is declared by its statements or inside it. -/
theorem any_fields_declare_iff {name : String}
    (hfills : (Value.node tag fields).fills slot = true)
    (hvariable : Kind.ofTag tag ≠ .variableDeclaration) :
    (∃ entry ∈ fields, entry.2.declares name = true) ↔
      (∃ key ∈ (Kind.ofTag tag).statementFields, ∃ value,
        Fields.get? fields key = some value ∧ value.hoists name = true) ∨
      (Value.node tag fields).hoistsInside name = true := by
  rw [hoistsInside_node]
  constructor
  · rintro ⟨⟨key, value⟩, hmem, hdeclares⟩
    have hget := (mem_fields_iff hfills).1 hmem
    rcases Bool.or_eq_true_iff.1 hdeclares with hhoists | hinside
    · obtain ⟨kind, hkind, hhoist⟩ :=
        exists_kind_of_hoists value (fills_field hfills hget) hhoists
      rcases mem_statementFields_of_slot hkind hhoist with hkey | ⟨hfunction, rfl⟩
      · exact .inl ⟨key, hkey, value, hget, hhoists⟩
      · exact .inr ⟨hvariable, .inl ⟨hfunction, value, hget, hhoists⟩⟩
    · exact .inr ⟨hvariable, .inr ⟨(key, value), hmem, hinside⟩⟩
  · rintro (⟨key, -, value, hget, hhoists⟩ | ⟨-, ⟨-, body, hget, hhoists⟩ | ⟨entry, hmem, hinside⟩⟩)
    · exact ⟨(key, value), Fields.mem_of_get? hget, by rw [declares, hhoists, Bool.true_or]⟩
    · exact ⟨("body", body), Fields.mem_of_get? hget, by rw [declares, hhoists, Bool.true_or]⟩
    · exact ⟨entry, hmem, by rw [declares, hinside, Bool.or_true]⟩

/-- The names hoisted out of a value are those that its statements declare, and those
that the functions inside it declare. -/
theorem hoistedNames_finds (value : Value) {slot : Slot} (hfills : value.fills slot = true) :
    Finds value.hoistedNames fun name => value.declares name := by
  cases value with
  | array items =>
    obtain ⟨inner, -, hitems⟩ := fills_array_iff.1 hfills
    rw [hoistedNames]
    refine (ofItems_finds fun item hitem => ?_).congr fun name => (declares_array name items).symm
    have hsmaller := size_lt_of_mem_array hitem
    exact hoistedNames_finds item (hitems item hitem)
  | node tag fields =>
    have hfields : Finds (hoistedNames.ofFields fields) fun name =>
        fields.any fun entry => entry.2.declares name := by
      refine ofFields_finds fun entry hmem => ?_
      have hget := (mem_fields_iff hfills).1 hmem
      have hsmaller : entry.2.size < (Value.node tag fields).size := size_lt_of_lookup hget
      exact hoistedNames_finds entry.2 (fills_field hfills hget)
    rw [hoistedNames]
    split
    · rename_i hkind
      refine (declaredNames_finds hfills hkind).congr fun name => ?_
      have hinside : (Value.node tag fields).hoistsInside name = false := by
        rw [← Bool.not_eq_true, hoistsInside_node]
        exact fun hboth => hboth.1 hkind
      rw [declares, hinside, Bool.or_false]
    · rename_i hkind
      obtain ⟨own, hown, hfills'⟩ := exists_field hfills hkind
        (show Kind.slot .functionDeclaration "id" = .one [.identifier] from rfl) rfl
      refine (Finds.append (boundNamesAt_finds fun pattern hpattern => ?_) hfields).congr
        fun name => ?_
      · cases hown.symm.trans hpattern
        exact fills_optional_of_subset (by decide) (.inr hfills')
      · rw [declares, hoists_functionDeclaration hkind, binds_node (by rw [hkind]; rfl) hown,
          hown, Option.any_some]
        congr 1
        rw [Bool.eq_iff_iff, List.any_eq_true, any_fields_declare_iff hfills (by simp [hkind])]
        simp [hkind, statementFields]
    · rename_i hvariable hfunction
      refine hfields.congr fun name => ?_
      rw [Bool.eq_iff_iff, List.any_eq_true, any_fields_declare_iff hfills hvariable, declares,
        Bool.or_eq_true, hoists_node hvariable hfunction]
  | _ => exact Finds.nothing
termination_by value.size

end Value

end Debundle
