import Debundle.Module.Table
import Debundle.Proofs.Entries
import Debundle.Proofs.Naming.Candidate

/-!
# Runs of the naming pass

The slots of a bundle are named one after the other, and the registry is carried along.  A
run says what each step does; from it follow the modules that are named, where their
names come from, and what the registry holds in the end.
-/

namespace Debundle

variable {start final : Registry} {slots : List (Value × Nat)} {named : List NamedModule}
  {module : NamedModule}

/-- The naming pass leads from the registry `start` over the slots to the registry
`final`. -/
inductive NamingRun :
    Registry → List (Value × Nat) → Registry → List NamedModule → Prop where
  | done (registry : Registry) : NamingRun registry [] registry []
  | hole {start final : Registry} {id : Nat} {rest : List (Value × Nat)}
      {named : List NamedModule} :
      NamingRun start rest final named → NamingRun start ((.null, id) :: rest) final named
  | module {start final : Registry} {body candidate : Value} {id : Nat}
      {rest : List (Value × Nat)} {named : List NamedModule} :
      body.isNull = false → body.primaryExport = .ok candidate →
      NamingRun (start.claim id candidate) rest final named →
      NamingRun start ((body, id) :: rest) final
        ({ id, body, candidate, name := start.nameFor id candidate } :: named)

theorem NamingRun.of_ok (hnamed : nameModules start slots = .ok (final, named)) :
    NamingRun start slots final named := by
  induction slots generalizing start final named with
  | nil =>
    cases hnamed
    exact .done start
  | cons slot rest ih =>
    obtain ⟨body, id⟩ := slot
    cases hnull : body.isNull with
    | true =>
      cases body <;> cases hnull
      exact .hole (ih hnamed)
    | false =>
      rw [nameModules] at hnamed
      · simp only [Attempt.bind_eq_ok_iff, Attempt.pure_eq_ok_iff] at hnamed
        obtain ⟨candidate, hcandidate, ⟨other, others⟩, hrest, heq⟩ := hnamed
        cases heq
        exact .module hnull hcandidate (ih hrest)
      · rintro rfl
        cases hnull

namespace NamedModule

/-- The module has a name of its own, and not only one made of its id. -/
def isDerived (module : NamedModule) : Bool :=
  module.candidate.isTruthy

/-- The name of the module comes from its exports, or else from its id. -/
structure IsNamed (module : NamedModule) : Prop where
  candidate_eq : module.body.primaryExport = .ok module.candidate
  derived : module.isDerived = true → ∃ index, module.name = numberedName module.candidate index
  fallback : module.isDerived = false → module.name = .text (fallbackName module.id)

theorem IsNamed.name_isKey (hmodule : module.IsNamed) : module.name.isKey = true := by
  cases hderived : module.isDerived with
  | true =>
    obtain ⟨index, hname⟩ := hmodule.derived hderived
    rw [hname, numberedName]
    split
    · exact Value.primaryExport_isKey hmodule.candidate_eq
    · rfl
  | false =>
    rw [hmodule.fallback hderived]
    rfl

end NamedModule

namespace Registry

variable {body candidate name : Value} {id : Nat}

theorem nameFor_isNamed (hcandidate : body.primaryExport = .ok candidate) :
    NamedModule.IsNamed { id, body, candidate, name := start.nameFor id candidate } := by
  refine ⟨hcandidate, fun hderived => ?_, fun hfallback => ?_⟩
  · obtain ⟨index, -, heq, -⟩ := uniqueName_eq_first candidate start.claimed
    exact ⟨index, by simpa [nameFor, show candidate.isTruthy = true from hderived]⟩
  · simp [nameFor, show candidate.isTruthy = false from hfallback]

theorem nameFor_not_claimed (htruthy : candidate.isTruthy = true) :
    start.claimed.contains (start.nameFor id candidate) = false := by
  rw [nameFor, if_pos htruthy]
  exact uniqueName_not_taken candidate start.claimed

/-- A name that is free after a claim was free before it, and is not the claimed one. -/
theorem not_claimed_of_claim (hfree : (start.claim id candidate).claimed.contains name = false) :
    start.claimed.contains name = false ∧
      (candidate.isTruthy = true → (name == start.nameFor id candidate) = false) := by
  rw [claim] at hfree
  cases htruthy : candidate.isTruthy with
  | true => simpa [htruthy, List.contains_eq_any_beq] using hfree
  | false => simpa [htruthy] using hfree

end Registry

namespace NamingRun

variable (hrun : NamingRun start slots final named)

include hrun

/-- A module is named for every slot that is not empty, in the order of the slots. -/
theorem map_slot : named.map (fun module => (module.body, module.id)) =
    slots.filter fun slot => !slot.1.isNull := by
  induction hrun with
  | done => rfl
  | hole _ ih => exact ih
  | module hnull _ _ ih => rw [List.map_cons, ih, List.filter_cons_of_pos (by simp [hnull])]

theorem isNamed (hmodule : module ∈ named) : module.IsNamed := by
  induction hrun with
  | done => cases hmodule
  | hole _ ih => exact ih hmodule
  | module _ hcandidate _ ih =>
    rcases List.mem_cons.1 hmodule with rfl | hrest
    · exact Registry.nameFor_isNamed hcandidate
    · exact ih hrest

/-- A name that comes from exports was not taken before the run. -/
theorem name_not_claimed (hmodule : module ∈ named) (hderived : module.isDerived = true) :
    start.claimed.contains module.name = false := by
  induction hrun with
  | done => cases hmodule
  | hole _ ih => exact ih hmodule
  | module _ _ _ ih =>
    rcases List.mem_cons.1 hmodule with rfl | hrest
    · exact Registry.nameFor_not_claimed hderived
    · exact (Registry.not_claimed_of_claim (ih hrest)).1

/-- Names that come from exports differ from each other. -/
theorem derived_apart {left right : NamedModule} (hleft : left ∈ named) (hright : right ∈ named)
    (hid : left.id ≠ right.id) (hleftDerived : left.isDerived = true)
    (hrightDerived : right.isDerived = true) : (left.name == right.name) = false := by
  induction hrun with
  | done => cases hleft
  | hole _ ih => exact ih hleft hright
  | module _ hcandidate hrest ih =>
    -- The first name is among those claimed when a later one is chosen.
    rcases List.mem_cons.1 hleft with rfl | hleftLater <;>
      rcases List.mem_cons.1 hright with rfl | hrightLater
    · exact absurd rfl hid
    · have hfree := hrest.name_not_claimed hrightLater hrightDerived
      rw [Value.beq_comm_of_isKey (Registry.nameFor_isNamed hcandidate).name_isKey
        (hrest.isNamed hrightLater).name_isKey]
      exact (Registry.not_claimed_of_claim hfree).2 hleftDerived
    · have hfree := hrest.name_not_claimed hleftLater hleftDerived
      exact (Registry.not_claimed_of_claim hfree).2 hrightDerived
    · exact ih hleftLater hrightLater

theorem name?_of_not_mem {id : Int} (hid : ∀ module ∈ named, (module.id : Int) ≠ id) :
    final.name? id = start.name? id := by
  induction hrun with
  | done => rfl
  | hole _ ih => exact ih hid
  | module _ _ _ ih =>
    rw [ih fun module hmodule => hid module (List.mem_cons_of_mem _ hmodule)]
    rw [Registry.name?, Registry.claim, Entries.lookup_put,
      beq_false_of_ne (hid _ List.mem_cons_self).symm]
    rfl

/-- In the end the registry holds the name of every module. -/
theorem name?_eq (hids : (named.map NamedModule.id).Nodup) (hmodule : module ∈ named) :
    final.name? module.id = some module.name := by
  induction hrun with
  | done => cases hmodule
  | hole _ ih => exact ih hids hmodule
  | module _ _ hrest ih =>
    rw [List.map_cons, List.nodup_cons] at hids
    rcases List.mem_cons.1 hmodule with rfl | hlater
    · rw [hrest.name?_of_not_mem, Registry.name?, Registry.claim, Entries.lookup_put]
      · simp
      · intro later hlater hid
        exact hids.1 (List.mem_map.2 ⟨later, hlater, Int.ofNat.inj hid⟩)
    · exact ih hids.2 hlater

end NamingRun

/-- The naming pass over all slots of a bundle. -/
def NamesSlots (slots : List Value) (final : Registry) (named : List NamedModule) : Prop :=
  NamingRun {} slots.zipIdx final named

namespace NamesSlots

variable {slots : List Value} (hnames : NamesSlots slots final named)

include hnames

theorem map_id : named.map NamedModule.id =
    (slots.zipIdx.filter fun slot => !slot.1.isNull).map Prod.snd := by
  rw [← NamingRun.map_slot hnames, List.map_map]
  rfl

/-- No two modules have the same id. -/
theorem nodup_id : (named.map NamedModule.id).Nodup := by
  rw [hnames.map_id]
  refine List.Nodup.sublist (List.filter_sublist.map Prod.snd) ?_
  rw [List.zipIdx_map_snd]
  exact List.nodup_range'

/-- The modules are the slots that are not empty, and their ids are the places. -/
theorem exists_mem_iff {id : Nat} {body : Value} :
    (∃ module ∈ named, module.id = id ∧ module.body = body) ↔
      slots[id]? = some body ∧ body.isNull = false := by
  have hslot : (∃ module ∈ named, module.id = id ∧ module.body = body) ↔
      (body, id) ∈ named.map fun module => (module.body, module.id) := by
    simp [and_comm]
  rw [hslot, NamingRun.map_slot hnames, List.mem_filter, List.mem_zipIdx_iff_getElem?,
    Bool.not_eq_true']

/-- The registry knows the names of the modules, and no others. -/
theorem name?_eq_some_iff {id : Int} {name : Value} :
    final.name? id = some name ↔
      ∃ module ∈ named, (module.id : Int) = id ∧ module.name = name := by
  constructor
  · intro hname
    by_contra hnone
    have hother : ∀ module ∈ named, (module.id : Int) ≠ id := by
      rintro module hmodule rfl
      rw [NamingRun.name?_eq hnames hnames.nodup_id hmodule] at hname
      exact hnone ⟨module, hmodule, rfl, Option.some.inj hname⟩
    rw [NamingRun.name?_of_not_mem hnames hother] at hname
    cases hname
  · rintro ⟨module, hmodule, rfl, rfl⟩
    exact NamingRun.name?_eq hnames hnames.nodup_id hmodule

end NamesSlots

end Debundle
