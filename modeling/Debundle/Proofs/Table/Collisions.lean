import Debundle.Proofs.Script.Build
import Debundle.Proofs.Table.Naming
import Debundle.Proofs.Table.Sources

/-!
# Modules of the same name

Names that come from exports are kept apart, and so are the names made of ids.  Two
modules have the same name exactly if the export of one of them is spelled like the name
made of the id of the other.  Each such pair costs one entry of the sources by name.
-/

namespace Debundle

namespace NamedModule

variable {left right : NamedModule}

/-- The module exports nothing, and the other was named after an export that is spelled
like the name made of its id. -/
def fallsOn (module derived : NamedModule) : Bool :=
  !module.isDerived && derived.isDerived && derived.name == .text (fallbackName module.id)

/-- One of the modules falls on the other. -/
def collides (left right : NamedModule) : Bool :=
  left.fallsOn right || right.fallsOn left

theorem fallsOn_of_isDerived_eq (heq : left.isDerived = right.isDerived) :
    left.fallsOn right = false := by
  rw [fallsOn, heq]
  cases right.isDerived <;> rfl

theorem fallsOn_of_derived (hleft : left.isDerived = true) : left.fallsOn right = false := by
  rw [fallsOn, hleft]
  rfl

theorem fallsOn_of_fallback (hleft : left.isDerived = false) (hright : right.isDerived = true) :
    left.fallsOn right = (right.name == .text (fallbackName left.id)) := by
  rw [fallsOn, hleft, hright]
  rfl

theorem IsNamed.beq_fallback (hleft : left.IsNamed) (hderived : left.isDerived = false) :
    (left.name == right.name) = (right.name == .text (fallbackName left.id)) := by
  rw [hleft.fallback hderived, Bool.eq_iff_iff, Value.text_beq_iff]
  constructor
  · intro hname
    rw [hname]
    exact Value.text_beq_iff.2 rfl
  · exact Value.same_eq_text

theorem fallbackName_inj {id other : Nat} (hname : fallbackName id = fallbackName other) :
    id = other := by
  have hdigits : toString (id : Int) = toString (other : Int) := (String.append_right_inj _).1 hname
  exact Int.ofNat.inj (Int.repr_injective hdigits)

end NamedModule

namespace NamesSlots

open NamedModule

variable {slots : List Value} {final : Registry} {named : List NamedModule}
  {left right third : NamedModule} (hnames : NamesSlots slots final named)

include hnames

/-- Names of one origin differ from each other. -/
theorem apart_of_isDerived_eq (hleft : left ∈ named) (hright : right ∈ named)
    (hid : left.id ≠ right.id) (horigin : left.isDerived = right.isDerived) :
    (left.name == right.name) = false := by
  cases hderived : left.isDerived with
  | true => exact NamingRun.derived_apart hnames hleft hright hid hderived (horigin ▸ hderived)
  | false =>
    by_contra hsame
    rw [Bool.not_eq_false, (NamingRun.isNamed hnames hleft).fallback hderived,
      Value.text_beq_iff, (NamingRun.isNamed hnames hright).fallback (horigin ▸ hderived),
      Value.text.injEq] at hsame
    exact hid (fallbackName_inj hsame.symm)

/-- Two modules have the same name if one of them falls on the other. -/
theorem name_beq (hleft : left ∈ named) (hright : right ∈ named) (hid : left.id ≠ right.id) :
    (left.name == right.name) = left.collides right := by
  rw [collides]
  have hleftNamed := NamingRun.isNamed hnames hleft
  have hrightNamed := NamingRun.isNamed hnames hright
  cases hleftDerived : left.isDerived <;> cases hrightDerived : right.isDerived
  · have horigin := hleftDerived.trans hrightDerived.symm
    rw [hnames.apart_of_isDerived_eq hleft hright hid horigin, fallsOn_of_isDerived_eq horigin,
      fallsOn_of_isDerived_eq horigin.symm]
    rfl
  · rw [fallsOn_of_fallback hleftDerived hrightDerived, fallsOn_of_derived hrightDerived,
      Bool.or_false, hleftNamed.beq_fallback hleftDerived]
  · rw [fallsOn_of_derived hleftDerived, fallsOn_of_fallback hrightDerived hleftDerived,
      Bool.false_or, Value.beq_comm_of_isKey hleftNamed.name_isKey hrightNamed.name_isKey,
      hrightNamed.beq_fallback hrightDerived]
  · have horigin := hleftDerived.trans hrightDerived.symm
    rw [hnames.apart_of_isDerived_eq hleft hright hid horigin, fallsOn_of_isDerived_eq horigin,
      fallsOn_of_isDerived_eq horigin.symm]
    rfl

/-- A name that two modules share is a text. -/
theorem exists_text_of_same (hleft : left ∈ named) (hright : right ∈ named)
    (hid : left.id ≠ right.id) (hsame : (left.name == right.name) = true) :
    ∃ text, left.name = .text text ∧ right.name = .text text := by
  cases hderived : left.isDerived with
  | false =>
    have hname := (NamingRun.isNamed hnames hleft).fallback hderived
    rw [hname, Value.text_beq_iff] at hsame
    exact ⟨_, hname, hsame⟩
  | true =>
    cases hother : right.isDerived with
    | false =>
      have hname := (NamingRun.isNamed hnames hright).fallback hother
      rw [hname] at hsame
      exact ⟨_, Value.same_eq_text hsame, hname⟩
    | true =>
      rw [hnames.apart_of_isDerived_eq hleft hright hid (hderived.trans hother.symm)] at hsame
      cases hsame

/-- No three modules have one text for a name. -/
theorem id_eq_of_same_text {text : String} (hleft : left ∈ named) (hright : right ∈ named)
    (hthird : third ∈ named) (hleftName : left.name = .text text)
    (hrightName : right.name = .text text) (hthirdName : third.name = .text text) :
    left.id = right.id ∨ left.id = third.id ∨ right.id = third.id := by
  have hone : ∀ first ∈ named, ∀ second ∈ named, first.name = .text text →
      second.name = .text text → first.isDerived = second.isDerived → first.id = second.id := by
    intro first hfirst second hsecond hfirstName hsecondName horigin
    by_contra hid
    have hapart := hnames.apart_of_isDerived_eq hfirst hsecond hid horigin
    rw [hfirstName, hsecondName, Value.text_beq_iff.2 rfl] at hapart
    cases hapart
  -- Of three origins two agree.
  by_cases hfirst : left.isDerived = right.isDerived
  · exact .inl (hone left hleft right hright hleftName hrightName hfirst)
  by_cases hsecond : left.isDerived = third.isDerived
  · exact .inr (.inl (hone left hleft third hthird hleftName hthirdName hsecond))
  · have horigin : right.isDerived = third.isDerived :=
      (Bool.eq_not_of_ne (Ne.symm hfirst)).trans (Bool.eq_not_of_ne (Ne.symm hsecond)).symm
    exact .inr (.inr (hone right hright third hthird hrightName hthirdName horigin))

theorem pairwise_id {others : List NamedModule} (hsub : others.Sublist named) :
    others.Pairwise fun left right => left.id ≠ right.id :=
  (List.pairwise_map.1 hnames.nodup_id).sublist hsub

/-- A name is shared by at most two modules. -/
theorem countP_same_le (hleft : left ∈ named) :
    (named.countP fun other => left.name == other.name) ≤ 2 := by
  rw [List.countP_eq_length_filter]
  have hids := hnames.pairwise_id
    (List.filter_sublist (p := fun other => left.name == other.name) (l := named))
  have hsame : ∀ other ∈ named.filter (fun other => left.name == other.name),
      other ∈ named ∧ (left.name == other.name) = true := fun other => List.mem_filter.1
  generalize named.filter (fun other => left.name == other.name) = sharing at hids hsame ⊢
  -- With three of them, one is not `left`, and then all names are one text.
  rcases sharing with _ | ⟨first, _ | ⟨second, _ | ⟨last, rest⟩⟩⟩
  · simp
  · simp
  · simp
  · exfalso
    simp only [List.mem_cons, forall_eq_or_imp] at hsame
    obtain ⟨⟨hfirst, hfirstSame⟩, ⟨hsecond, hsecondSame⟩, ⟨hlast, hlastSame⟩, -⟩ := hsame
    simp only [List.pairwise_cons, List.mem_cons, forall_eq_or_imp] at hids
    obtain ⟨text, htext⟩ : ∃ text, left.name = .text text := by
      by_cases hid : left.id = first.id
      · have hother : left.id ≠ second.id := hid ▸ hids.1.1
        obtain ⟨text, htext, -⟩ := hnames.exists_text_of_same hleft hsecond hother hsecondSame
        exact ⟨text, htext⟩
      · obtain ⟨text, htext, -⟩ := hnames.exists_text_of_same hleft hfirst hid hfirstSame
        exact ⟨text, htext⟩
    rw [htext, Value.text_beq_iff] at hfirstSame hsecondSame hlastSame
    rcases hnames.id_eq_of_same_text hfirst hsecond hlast hfirstSame hsecondSame hlastSame with
      hid | hid | hid
    · exact hids.1.1 hid
    · exact hids.1.2.1 hid
    · exact hids.2.1.1 hid

end NamesSlots

/-- The pairs of modules of which one falls on the other. -/
def collisions : List Module → List (Module × Module)
  | [] => []
  | module :: rest =>
    (rest.filter fun other => module.collides other.toNamedModule).map (module, ·) ++
      collisions rest

theorem length_collisions_concat (modules : List Module) (last : Module) :
    (collisions (modules ++ [last])).length = (collisions modules).length +
      modules.countP fun module => module.collides last.toNamedModule := by
  induction modules with
  | nil => rfl
  | cons module rest ih =>
    simp only [List.cons_append, collisions, List.length_append, List.length_map, ih,
      List.filter_append, List.countP_cons, List.filter_singleton]
    cases module.collides last.toNamedModule with
    | true =>
      rw [cond_true, List.length_singleton, if_pos rfl]
      omega
    | false =>
      rw [cond_false, List.length_nil, if_neg Bool.false_ne_true]
      omega

namespace NamesSlots

open NamedModule

variable {slots : List Value} {final : Registry} {named : List NamedModule}
  {modules : List Module} {last : Module} (hnames : NamesSlots slots final named)

include hnames

theorem pairwise_shareText (hmodules : (modules.map Module.toNamedModule).Sublist named) :
    modules.Pairwise Module.ShareText := by
  have hids := List.pairwise_map.1 (hnames.pairwise_id hmodules)
  apply hids.imp_of_mem
  intro left right hleft hright hid hsame
  have hleft := hmodules.subset (List.mem_map_of_mem hleft)
  have hright := hmodules.subset (List.mem_map_of_mem hright)
  rcases hsame with hsame | hsame
  · exact hnames.exists_text_of_same hleft hright hid hsame
  · obtain ⟨text, hrightName, hleftName⟩ :=
      hnames.exists_text_of_same hright hleft hid.symm hsame
    exact ⟨text, hleftName, hrightName⟩

/-- At most one module before another has its name. -/
theorem countP_same_before
    (hmodules : ((modules ++ [last]).map Module.toNamedModule).Sublist named) :
    (modules.countP fun module => module.name == last.name) ≤ 1 := by
  have hlast : last.toNamedModule ∈ named := hmodules.subset (by simp)
  have hshare := (List.pairwise_append.1 (hnames.pairwise_shareText hmodules)).2.2
  by_cases hnone : (modules.countP fun module => module.name == last.name) = 0
  · omega
  obtain ⟨first, hfirst, hsame⟩ := List.countP_pos_iff.1 (Nat.pos_of_ne_zero hnone)
  obtain ⟨text, -, htext⟩ := hshare first hfirst last (List.mem_singleton.2 rfl) (.inl hsame)
  have hflip : ∀ other : NamedModule, (other.name == last.name) = (last.name == other.name) := by
    intro other
    rw [htext, Bool.eq_iff_iff, Value.text_beq_iff]
    exact ⟨Value.same_eq_text, fun hname => hname ▸ Value.text_beq_iff.2 rfl⟩
  have htotal := (hmodules.countP_le (p := fun other => last.name == other.name)).trans
    (hnames.countP_same_le hlast)
  have hself : (last.name == last.name) = true := by
    rw [htext]
    exact Value.text_beq_iff.2 rfl
  rw [List.countP_map, List.countP_append, List.countP_singleton] at htotal
  simp only [Function.comp_apply, hself, if_true] at htotal
  simp only [hflip]
  exact Nat.le_of_succ_le_succ htotal

/-- A module adds a first use or a collision. -/
theorem length_firstUses (hmodules : (modules.map Module.toNamedModule).Sublist named) :
    (firstUses modules).length + (collisions modules).length = modules.length := by
  induction modules using List.reverseRecOn with
  | nil => rfl
  | append_singleton modules last ih =>
    have hbefore := ih (.trans (by simp) hmodules)
    have hids := List.pairwise_map.1 (hnames.pairwise_id hmodules)
    have hcount : (modules.countP fun module => module.collides last.toNamedModule) =
        modules.countP fun module => module.name == last.name := by
      apply List.countP_congr
      intro module hmodule
      rw [hnames.name_beq (hmodules.subset (by simpa using .inl ⟨module, hmodule, rfl⟩))
        (hmodules.subset (by simp))
        ((List.pairwise_append.1 hids).2.2 module hmodule last (List.mem_singleton.2 rfl))]
    have hone := hnames.countP_same_before hmodules
    rw [firstUses_concat, length_collisions_concat, hcount, List.length_append,
      List.length_append, List.length_singleton]
    cases hused : modules.any fun module => module.name == last.name with
    | true =>
      have hpos : 0 < modules.countP fun module => module.name == last.name :=
        List.countP_pos_iff.2 (List.any_eq_true.1 hused)
      rw [if_pos rfl, List.length_nil]
      omega
    | false =>
      have hzero : (modules.countP fun module => module.name == last.name) = 0 := by
        rw [List.countP_eq_zero]
        simpa using hused
      rw [if_neg Bool.false_ne_true, List.length_singleton]
      omega

end NamesSlots

/-- Modules have the same name exactly if one of them exports nothing and the other was
named like it after an export.  So names of one origin differ, no three modules have the
same name, and each collision leaves one name fewer to find sources by. -/
theorem nameModules_collide_iff {slots : List Value} {registry : Registry}
    {named : List NamedModule} (hnamed : nameModules {} slots.zipIdx = .ok (registry, named)) :
    (named.map fun module => (module.body, module.id)) =
        (slots.zipIdx.filter fun slot => !slot.1.isNull) ∧
      (∀ module ∈ named, module.IsNamed) ∧
      (∀ left ∈ named, ∀ right ∈ named, left.id ≠ right.id →
        ((left.name == right.name) = true ↔
          left.fallsOn right = true ∨ right.fallsOn left = true)) ∧
      (∀ left ∈ named, ∀ right ∈ named, left.id ≠ right.id → left.isDerived = right.isDerived →
        (left.name == right.name) = false) ∧
      (∀ module ∈ named, (named.countP fun other => module.name == other.name) ≤ 2) ∧
      ∀ table : ModuleTable, table.modules.map Module.toNamedModule = named →
        table.sources.length + (collisions table.modules).length = table.modules.length ∧
        table.sources = (firstUses table.modules).map fun module =>
          (module.name, (lastUse table.modules module).source) := by
  have hnames : NamesSlots slots registry named := NamingRun.of_ok hnamed
  refine ⟨NamingRun.map_slot hnames, fun _ => NamingRun.isNamed hnames, ?_, ?_, ?_, ?_⟩
  · intro left hleft right hright hid
    rw [hnames.name_beq hleft hright hid, NamedModule.collides, Bool.or_eq_true]
  · intro left hleft right hright hid horigin
    exact hnames.apart_of_isDerived_eq hleft hright hid horigin
  · intro module hmodule
    exact hnames.countP_same_le hmodule
  · intro table htable
    subst htable
    have hsources := ModuleTable.sources_eq (hnames.pairwise_shareText (.refl _))
    refine ⟨?_, hsources⟩
    rw [hsources, List.length_map]
    exact hnames.length_firstUses (.refl _)

/-- The export of the first module is spelled like the name made of the id of the second,
so the source of the second is found under the name of the first. -/
theorem nameModules_collide_iff_exporting :
    ∃ registry left right,
      nameModules {} [Build.exporting "module-1", Build.function [] []].zipIdx =
        .ok (registry, [left, right]) ∧
      left.id = 0 ∧ right.id = 1 ∧ right.fallsOn left = true ∧
      ∀ (table : ModuleTable) (first second : Module), table.modules = [first, second] →
        first.toNamedModule = left → second.toNamedModule = right →
        table.sources = [(.text "module-1", second.source)] := by
  have hresult : (nameModules {}
      [Build.exporting "module-1", Build.function [] []].zipIdx).toOption.map
        (fun result => result.2.map fun module =>
          ((module.id, module.name), module.isDerived)) =
      some [((0, .text "module-1"), true), ((1, .text "module-1"), false)] := by
    decide +kernel
  obtain ⟨⟨registry, named⟩, hnamed, hmap⟩ := Attempt.of_toOption_map hresult
  obtain ⟨left, rest, rfl, hleft, hrest⟩ := List.map_eq_cons_iff.1 hmap
  obtain ⟨right, none, rfl, hright, hnone⟩ := List.map_eq_cons_iff.1 hrest
  obtain rfl := List.map_eq_nil_iff.1 hnone
  simp only [Prod.mk.injEq] at hleft hright
  have hcollide := nameModules_collide_iff hnamed
  refine ⟨registry, left, right, hnamed, hleft.1.1, hright.1.1, ?_, ?_⟩
  · rw [NamedModule.fallsOn, hleft.2, hright.2, hleft.1.2, hright.1.1]
    decide +kernel
  · intro table first second hmodules hfirst hsecond
    have hsources := (hcollide.2.2.2.2.2 table (by rw [hmodules, ← hfirst, ← hsecond]; rfl)).2
    have hsame : (first.name == second.name) = true := by
      rw [hfirst, hsecond, hleft.1.2, hright.1.2]
      rfl
    have hfirstUses : firstUses [first, second] = [first] := by simp [firstUses, hsame]
    have hlastUse : lastUse ([first] ++ [second]) first = second := lastUse_concat_of_same hsame
    rw [List.singleton_append] at hlastUse
    rw [hsources, hmodules, hfirstUses, List.map_singleton, hlastUse, hfirst, hleft.1.2]

end Debundle
