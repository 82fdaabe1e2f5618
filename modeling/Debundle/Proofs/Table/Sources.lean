import Debundle.Module.Table
import Debundle.Proofs.Entries
import Debundle.Proofs.Tree.Key
import Mathlib.Data.List.Induction
import Mathlib.Data.List.Nodup

/-!
# Sources by name

The sources of a table are put one after the other under the names of their modules.  In
the end there is one entry for each module whose name was not used before it, in that
order, and it holds the source of the last module of that name.
-/

namespace Debundle

/-- The modules whose name no module before them has. -/
def firstUses : List Module → List Module
  | [] => []
  | module :: rest =>
    module :: (firstUses rest).filter fun other => !(module.name == other.name)

/-- The last of the modules that have the name of `module`. -/
def lastUse (modules : List Module) (module : Module) : Module :=
  (modules.filter fun other => module.name == other.name).getLastD module

/-- If two modules have the same name, it is a text. -/
def Module.ShareText (left right : Module) : Prop :=
  (left.name == right.name) = true ∨ (right.name == left.name) = true →
    ∃ text, left.name = .text text ∧ right.name = .text text

variable {modules : List Module} {module last : Module}

theorem firstUses_sublist (modules : List Module) : (firstUses modules).Sublist modules := by
  induction modules with
  | nil => exact .slnil
  | cons module rest ih => exact (List.filter_sublist.trans ih).cons_cons module

theorem firstUses_concat (modules : List Module) (last : Module) :
    firstUses (modules ++ [last]) = firstUses modules ++
      if modules.any fun module => module.name == last.name then [] else [last] := by
  induction modules with
  | nil => rfl
  | cons module rest ih =>
    rw [List.cons_append, firstUses, firstUses, ih, List.filter_append, List.any_cons,
      List.cons_append]
    congr 2
    cases rest.any fun other => other.name == last.name <;>
      cases hsame : module.name == last.name <;> simp [hsame]

theorem firstUses_pairwise (modules : List Module) :
    (firstUses modules).Pairwise fun left right => (left.name == right.name) = false := by
  induction modules with
  | nil => exact .nil
  | cons module rest ih =>
    refine .cons (fun other hother => ?_) (ih.sublist List.filter_sublist)
    simpa using (List.mem_filter.1 hother).2

/-- Every name in use has a first use. -/
theorem exists_firstUse (hshare : modules.Pairwise Module.ShareText) (hmodule : module ∈ modules) :
    module ∈ firstUses modules ∨
      ∃ first ∈ firstUses modules, (first.name == module.name) = true := by
  induction modules with
  | nil => cases hmodule
  | cons head rest ih =>
    rcases List.mem_cons.1 hmodule with rfl | hrest
    · exact .inl List.mem_cons_self
    rw [List.pairwise_cons] at hshare
    have hkept : ∀ other ∈ firstUses rest, (head.name == other.name) = false →
        other ∈ firstUses (head :: rest) := fun other hother hname =>
      List.mem_cons_of_mem head (List.mem_filter.2 ⟨hother, by simp [hname]⟩)
    cases hhead : head.name == module.name with
    | true => exact .inr ⟨head, List.mem_cons_self, hhead⟩
    | false =>
      rcases ih hshare.2 hrest with hfirst | ⟨first, hfirst, hsame⟩
      · exact .inl (hkept module hfirst hhead)
      refine .inr ⟨first, hkept first hfirst ?_, hsame⟩
      -- Otherwise all three would have one text for a name.
      by_contra hother
      rw [Bool.not_eq_false] at hother
      obtain ⟨text, hheadName, hfirstName⟩ :=
        hshare.1 first ((firstUses_sublist rest).subset hfirst) (.inl hother)
      rw [hfirstName, Value.text_beq_iff] at hsame
      rw [hheadName, hsame, Value.text_beq_iff.2 rfl] at hhead
      cases hhead

theorem lastUse_concat_of_same (hsame : (module.name == last.name) = true) :
    lastUse (modules ++ [last]) module = last := by
  simp [lastUse, List.filter_append, hsame]

theorem lastUse_concat_of_other (hother : (module.name == last.name) = false) :
    lastUse (modules ++ [last]) module = lastUse modules module := by
  simp [lastUse, List.filter_append, hother]

theorem lastUse_eq_self (hothers : ∀ other ∈ modules, (module.name == other.name) = false) :
    lastUse modules module = module := by
  rw [lastUse, List.filter_eq_nil_iff.2 fun other hother => by simp [hothers other hother]]
  rfl

/-- The entry for the name that a module uses first. -/
def entryOf (modules : List Module) (module : Module) : Value × Value :=
  (module.name, (lastUse modules module).source)

theorem entryOf_concat {others : List Module}
    (hothers : ∀ other ∈ others, (other.name == last.name) = false) :
    others.map (entryOf (modules ++ [last])) = others.map (entryOf modules) :=
  List.map_congr_left fun other hother => by
    rw [entryOf, entryOf, lastUse_concat_of_other (hothers other hother)]

/-- A module with a new name adds an entry. -/
theorem put_firstUses_of_new (hlast : ∀ other ∈ modules, other.ShareText last)
    (hnew : ∀ other ∈ modules, (other.name == last.name) = false) :
    Entries.put ((firstUses modules).map (entryOf modules)) last.name last.source =
      (firstUses modules ++ [last]).map (entryOf (modules ++ [last])) := by
  have hfirst : ∀ other ∈ firstUses modules, (other.name == last.name) = false :=
    fun other hmem => hnew other ((firstUses_sublist modules).subset hmem)
  have hself : lastUse (modules ++ [last]) last = last := by
    cases hsame : last.name == last.name with
    | true => exact lastUse_concat_of_same hsame
    | false =>
      rw [lastUse_concat_of_other hsame]
      refine lastUse_eq_self fun other hmem => ?_
      by_contra hboth
      rw [Bool.not_eq_false] at hboth
      obtain ⟨text, -, hlastName⟩ := hlast other hmem (.inr hboth)
      rw [hlastName, Value.text_beq_iff.2 rfl] at hsame
      cases hsame
  rw [Entries.put_of_absent, List.map_append, entryOf_concat hfirst, List.map_singleton,
    entryOf, hself]
  intro entry hentry
  obtain ⟨other, hmem, rfl⟩ := List.mem_map.1 hentry
  exact hfirst other hmem

/-- A module with a name in use replaces the source in the entry of that name. -/
theorem put_firstUses_of_used {first : Module} {text : String} (hfirst : first ∈ firstUses modules)
    (hfirstName : first.name = .text text) (hlastName : last.name = .text text) :
    Entries.put ((firstUses modules).map (entryOf modules)) last.name last.source =
      (firstUses modules).map (entryOf (modules ++ [last])) := by
  obtain ⟨before, after, hsplit⟩ := List.append_of_mem hfirst
  have hapart := firstUses_pairwise modules
  rw [hsplit, List.pairwise_append, List.pairwise_cons] at hapart
  have hsame : (first.name == last.name) = true := by
    rw [hfirstName, hlastName]
    exact Value.text_beq_iff.2 rfl
  have hbefore : ∀ other ∈ before, (other.name == last.name) = false := by
    intro other hmem
    rw [hlastName, ← hfirstName]
    exact hapart.2.2 other hmem first List.mem_cons_self
  have hafter : ∀ other ∈ after, (other.name == last.name) = false := by
    intro other hmem
    have hnot := hapart.2.1.1 other hmem
    by_contra hboth
    rw [Bool.not_eq_false, hlastName] at hboth
    rw [hfirstName, Value.same_eq_text hboth, Value.text_beq_iff.2 rfl] at hnot
    cases hnot
  have hkeys : ∀ entry ∈ before.map (entryOf modules), (entry.1 == last.name) = false := by
    intro entry hentry
    obtain ⟨other, hmem, rfl⟩ := List.mem_map.1 hentry
    exact hbefore other hmem
  have hentry : ((entryOf modules first).1 == last.name) = true := hsame
  rw [hsplit, List.map_append, List.map_cons, List.map_append, List.map_cons,
    entryOf_concat hbefore, entryOf_concat hafter, Entries.put_of_unique hentry hkeys, entryOf,
    entryOf, lastUse_concat_of_same hsame]

/-- What one more module does to the entries. -/
theorem put_firstUses (hshare : (modules ++ [last]).Pairwise Module.ShareText) :
    Entries.put ((firstUses modules).map (entryOf modules)) last.name last.source =
      (firstUses (modules ++ [last])).map (entryOf (modules ++ [last])) := by
  rw [List.pairwise_append] at hshare
  have hlast : ∀ other ∈ modules, other.ShareText last := fun other hother =>
    hshare.2.2 other hother last (List.mem_singleton.2 rfl)
  rw [firstUses_concat]
  cases hused : modules.any fun module => module.name == last.name with
  | false => exact put_firstUses_of_new hlast (by simpa using hused)
  | true =>
    obtain ⟨user, huser, hname⟩ := List.any_eq_true.1 hused
    obtain ⟨text, huserName, hlastName⟩ := hlast user huser (.inl hname)
    rw [if_pos rfl, List.append_nil]
    rcases exists_firstUse hshare.1 huser with hmem | ⟨first, hmem, hsame⟩
    · exact put_firstUses_of_used hmem huserName hlastName
    · rw [huserName] at hsame
      exact put_firstUses_of_used hmem (Value.same_eq_text hsame) hlastName

/-- The sources of a table in which only texts are shared as names. -/
theorem ModuleTable.sources_eq {table : ModuleTable}
    (hshare : table.modules.Pairwise Module.ShareText) :
    table.sources = (firstUses table.modules).map (entryOf table.modules) := by
  rw [ModuleTable.sources]
  generalize table.modules = modules at hshare ⊢
  induction modules using List.reverseRecOn with
  | nil => rfl
  | append_singleton modules last ih =>
    rw [List.foldl_append, ih (List.pairwise_append.1 hshare).1]
    exact put_firstUses hshare

theorem firstUses_eq_self
    (hapart : modules.Pairwise fun left right => (left.name == right.name) = false) :
    firstUses modules = modules := by
  induction modules with
  | nil => rfl
  | cons module rest ih =>
    rw [List.pairwise_cons] at hapart
    rw [firstUses, ih hapart.2, List.filter_eq_self.2]
    intro other hother
    rw [hapart.1 other hother]
    rfl

theorem lastUse_cases (modules : List Module) (module : Module) :
    lastUse modules module = module ∨
      lastUse modules module ∈ modules ∧
        (module.name == (lastUse modules module).name) = true := by
  rw [lastUse, List.getLastD_eq_getLast?]
  cases hlast : (modules.filter fun other => module.name == other.name).getLast? with
  | none => exact .inl rfl
  | some last => exact .inr (List.mem_filter.1 (List.mem_of_getLast? hlast))

namespace ModuleTable

variable {table : ModuleTable} (hids : (table.modules.map fun module => module.id).Nodup)
  (hapart : ∀ left ∈ table.modules, ∀ right ∈ table.modules, left.id ≠ right.id →
    (left.name == right.name) = false)

include hids hapart

/-- If all names differ, each module has an entry of its own. -/
theorem sources_of_apart :
    table.sources = table.modules.map fun module => (module.name, module.source) := by
  have hpairs : table.modules.Pairwise fun left right => left.id ≠ right.id :=
    List.pairwise_map.1 hids
  rw [sources_eq, firstUses_eq_self]
  · apply List.map_congr_left
    intro module hmodule
    rw [entryOf]
    rcases lastUse_cases table.modules module with hself | ⟨hlast, hsame⟩
    · rw [hself]
    · have hid : module.id = (lastUse table.modules module).id := by
        by_contra hid
        rw [hapart module hmodule _ hlast hid] at hsame
        cases hsame
      rw [← List.inj_on_of_nodup_map hids hmodule hlast hid]
  · exact hpairs.imp_of_mem fun hleft hright hid => hapart _ hleft _ hright hid
  · apply hpairs.imp_of_mem
    intro left right hleft hright hid hsame
    rw [hapart left hleft right hright hid, hapart right hright left hleft hid.symm] at hsame
    simp at hsame

theorem lookup_sources_of_apart {target : Module} (htarget : target ∈ table.modules)
    (hself : (target.name == target.name) = true) :
    table.sources.lookup target.name = some target.source := by
  rw [sources_of_apart hids hapart]
  have hbefore : ∀ other ∈ table.modules, other = target ∨
      (target.name == other.name) = false := by
    intro other hother
    by_cases hid : target.id = other.id
    · exact .inl (List.inj_on_of_nodup_map hids htarget hother hid).symm
    · exact .inr (hapart target htarget other hother hid)
  generalize table.modules = modules at htarget hbefore
  induction modules with
  | nil => cases htarget
  | cons module rest ih =>
    rw [List.map_cons, List.lookup_cons]
    rcases hbefore module List.mem_cons_self with rfl | hother
    · rw [hself]
    · rw [hother]
      have hrest : target ∈ rest := by
        rcases List.mem_cons.1 htarget with rfl | hrest
        · rw [hself] at hother
          cases hother
        · exact hrest
      exact ih hrest fun other hmem => hbefore other (List.mem_cons_of_mem module hmem)

end ModuleTable

end Debundle
