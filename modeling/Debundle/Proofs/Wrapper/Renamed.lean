import Debundle.Proofs.Rename.Module
import Debundle.Proofs.Rename.Revision
import Debundle.Proofs.Wrapper.Search

/-!
# The wrapper in a renamed module

A renaming keeps kinds and places, and the only list that it replaces holds a literal before
and after.  So the search for a wrapper takes the same way in a module body before and after
the renaming.
-/

namespace Debundle

open Attempt

namespace Value

variable {registry : Registry} {value before after arguments array : Value} {key : String}

namespace Revised

variable (hrevised : Revised registry before after)

include hrevised

theorem lengthAt_eq (hkey : isRewritten key = false) :
    after.lengthAt key = before.lengthAt key := by
  rw [lengthAt, lengthAt]
  rcases hrevised.lookup_plain _ hkey with ⟨hbefore, hafter⟩ | ⟨old, new, hold, hnew, hpart⟩
  · rw [hbefore, hafter]
  · rw [hold, hnew, Option.filter_some, Option.filter_some, hpart.isTruthy_eq]
    cases old.isTruthy with
    | true => exact hpart.length_eq
    | false => rfl

end Revised

/-- The test of the arguments of a wrapper, in the order of its steps. -/
theorem takesOnly_eq_do (kind : Kind) :
    value.takesOnly kind = do
      if (← value.lengthAt "arguments") ≠ 1 then return false
      let arguments ← value.require "arguments"
      return (← arguments.value.item 0).kind == kind := by
  rw [takesOnly, lengthAt]
  cases hlookup : value.lookup "arguments" with
  | none => rfl
  | some arguments =>
    obtain ⟨part, hpart, rfl⟩ := exists_part hlookup
    rw [require_eq_ok_iff.2 hpart, Option.filter_some, Option.elim_some]
    cases part.value.isTruthy with
    | false => rfl
    | true =>
      refine congrArg (part.value.length >>= ·) (funext fun count => ?_)
      by_cases hcount : count = 1
      · rw [if_neg (not_not.2 hcount), if_pos hcount]
        show _ = part.value.item 0 >>= _
        cases part.value.item 0 <;> rfl
      · rw [if_pos hcount, if_neg hcount]
        rfl

theorem isWrapper_of_call (hkind : value.kind = .callExpression) :
    value.isWrapper = (value.lookup "callee").elim (.ok false) fun callee =>
      if callee.isFunctionLiteral then
        callee.lengthAt "params" >>= fun count =>
          if count = 1 then value.takesOnly .arrayExpression else .ok false
      else .ok false := by
  rw [isWrapper, if_neg (not_not.2 hkind)]
  cases value.lookup "callee" with
  | none => rfl
  | some callee =>
    cases hfunction : callee.isFunctionLiteral with
    | false => simp [hfunction]
    | true =>
      simp only [hfunction, Option.elim_some, if_true]
      refine congrArg (callee.lengthAt "params" >>= ·) (funext fun count => ?_)
      by_cases hcount : count = 1
      · rw [if_neg (not_not.2 hcount), if_pos hcount, takesOnly_eq_do]
      · rw [if_pos hcount, if_neg hcount]
        rfl

theorem takesOnly_of_isWrapper (hwrapper : value.isWrapper = .ok true) :
    value.kind = .callExpression ∧ value.takesOnly .arrayExpression = .ok true := by
  have hkind : value.kind = .callExpression := by
    by_contra hkind
    cases (isWrapper_of_kind hkind).symm.trans hwrapper
  refine ⟨hkind, ?_⟩
  rw [isWrapper_of_call hkind] at hwrapper
  cases hcallee : value.lookup "callee" with
  | none =>
    rw [hcallee] at hwrapper
    cases hwrapper
  | some callee =>
    rw [hcallee, Option.elim_some] at hwrapper
    split_ifs at hwrapper with hfunction
    · obtain ⟨count, -, hcount⟩ := bind_eq_ok_iff.1 hwrapper
      split_ifs at hcount with hone
      · exact hcount
      · cases hcount
    · cases hwrapper

variable {kind : Kind} {wrapper : Value} {items statements : List Value}

theorem exists_item_of_takesOnly (htakes : value.takesOnly kind = .ok true) :
    ∃ arguments item, value.lookup "arguments" = some arguments ∧
      arguments.item 0 = .ok item ∧ item.kind = kind := by
  rw [takesOnly] at htakes
  cases hlookup : value.lookup "arguments" with
  | none =>
    rw [hlookup] at htakes
    cases htakes
  | some arguments =>
    rw [hlookup, Option.elim_some] at htakes
    obtain ⟨count, -, hcount⟩ := bind_eq_ok_iff.1 htakes
    split_ifs at hcount with hone
    · obtain ⟨found, hfound, hkind⟩ := map_eq_ok_iff.1 hcount
      obtain ⟨item, hitem, rfl⟩ := map_eq_ok_iff.1 hfound
      exact ⟨arguments, item, rfl, hitem, beq_iff_eq.1 hkind⟩
    · cases hcount

/-- The modules of a wrapper are the elements of its array. -/
theorem moduleCount_eq_lengthAt (hkind : value.kind = .callExpression)
    (hlookup : value.lookup "arguments" = some arguments) (hitem : arguments.item 0 = .ok array)
    (harray : array.kind = .arrayExpression) : value.moduleCount = array.lengthAt "elements" := by
  obtain ⟨part, hpart, rfl⟩ := exists_part hlookup
  have hother : value.kind ≠ .arrayExpression := by rw [hkind]; decide
  have hrecord : array.asRecord = .ok () := by
    cases array with
    | node => rfl
    | _ => cases harray
  have hmodules : value.moduleArray =
      .ok (((array.lookup "elements").filter isTruthy).getD (.array [])) := by
    rw [moduleArray, if_neg hother, require_eq_ok_iff.2 hpart]
    show (part.value.item 0 >>= _) = _
    rw [hitem]
    show (array.asRecord >>= _) = _
    rw [hrecord]
    rfl
  rw [moduleCount, hmodules, lengthAt]
  cases (array.lookup "elements").filter isTruthy <;> rfl

namespace Revised

variable (hrevised : Revised registry before after)

include hrevised

theorem isWrapper_eq : after.isWrapper = before.isWrapper := by
  by_cases hkind : before.kind = .callExpression
  · rw [isWrapper_of_call hkind, isWrapper_of_call (hrevised.kind_eq.trans hkind)]
    rcases hrevised.lookup_plain "callee" rfl with
      ⟨hbefore, hafter⟩ | ⟨old, new, hold, hnew, hcallee⟩
    · rw [hbefore, hafter]
      rfl
    · rw [hold, hnew, Option.elim_some, Option.elim_some, isFunctionLiteral, isFunctionLiteral,
        hcallee.kind_eq, hcallee.lengthAt_eq rfl, hrevised.takesOnly_eq]
  · rw [isWrapper_of_kind hkind, isWrapper_of_kind (hrevised.kind_eq.symm ▸ hkind)]

/-- The array of a wrapper is never replaced, so it keeps its length. -/
theorem moduleCount_eq (hwrapper : before.isWrapper = .ok true) :
    after.moduleCount = before.moduleCount := by
  obtain ⟨hkind, htakes⟩ := takesOnly_of_isWrapper hwrapper
  obtain ⟨arguments, array, hlookup, hitem, harray⟩ := exists_item_of_takesOnly htakes
  rw [moduleCount_eq_lengthAt hkind hlookup hitem harray]
  rcases hrevised.lookup_cases "arguments" with
    ⟨hnone, -⟩ | ⟨old, new, hold, hnew, hfield | ⟨-, hname, -⟩⟩
  · cases hnone.symm.trans hlookup
  · cases hold.symm.trans hlookup
    rcases hfield with ⟨hpart, -⟩ | ⟨-, -, literal, name, hliterals, hliteral, -⟩
    · obtain ⟨other, hother, hrelated⟩ := hpart.item_follows 0 array hitem
      rw [moduleCount_eq_lengthAt (hrevised.kind_eq.trans hkind) hnew hother
        (hrelated.kind_eq.trans harray)]
      exact hrelated.lengthAt_eq rfl
    · cases hliterals.symm.trans hlookup
      cases hitem
      cases hliteral.symm.trans harray
  · exact absurd hname (by decide)

theorem endsSearch_eq : after.endsSearch = before.endsSearch := by
  rw [endsSearch, endsSearch, hrevised.isWrapper_eq]
  cases hwrapper : before.isWrapper with
  | error fault => rfl
  | ok found =>
    cases found with
    | false => rfl
    | true =>
      show (after.moduleCount >>= _) = before.moduleCount >>= _
      rw [hrevised.moduleCount_eq hwrapper]

end Revised

/-- Two ways take the same fields and items, and the parts that they lead to are renamed
into each other. -/
def SameWay (registry : Registry) (old : Position × Part before) (new : Position × Part after) :
    Prop :=
  new.1 = old.1 ∧ Part.Revised registry old.2 new.2

theorem itemWays_sameWay {parts : List (Part before)} {others : List (Part after)}
    (hparts : List.Forall₂ (Part.Revised registry) parts others) :
    List.Forall₂ (SameWay registry) (itemWays parts) (itemWays others) := by
  rw [itemWays, itemWays, List.forall₂_map_left_iff, List.forall₂_map_right_iff]
  suffices hfrom : ∀ start, List.Forall₂
      (fun entry other => other.2 = entry.2 ∧ Part.Revised registry entry.1 other.1)
      (parts.zipIdx start) (others.zipIdx start) from
    (hfrom 0).imp fun _ _ hentry => ⟨by rw [hentry.1], hentry.2⟩
  induction hparts with
  | nil => exact fun _ => .nil
  | cons hpart _ ih => exact fun start => .cons ⟨rfl, hpart⟩ (ih (start + 1))

namespace Revised

theorem of_array {items : List Value} (hrevised : Revised registry (.array items) after) :
    ∃ others, after = .array others := by
  cases hrevised.revision with
  | same => exact ⟨items, rfl⟩
  | items => exact ⟨_, rfl⟩

theorem of_node {tag : String} {fields : Fields}
    (hrevised : Revised registry (.node tag fields) after) :
    ∃ others, after = .node tag others := by
  cases hrevised.revision <;> exact ⟨_, rfl⟩

variable (hrevised : Revised registry before after)

include hrevised

theorem wayInto_sameWay (hkey : isRewritten key = false) :
    List.Forall₂ (SameWay registry) (before.wayInto key) (after.wayInto key) := by
  rw [wayInto, wayInto]
  rcases hrevised.part?_plain _ hkey with ⟨hbefore, hafter⟩ | ⟨old, new, hold, hnew, hpart⟩
  · rw [hbefore, hafter]
    exact .nil
  · rw [hold, hnew]
    exact .cons ⟨rfl, hpart⟩ .nil

theorem waysIntoBody_sameWay :
    List.Forall₂ (SameWay registry) before.waysIntoBody after.waysIntoBody := by
  rw [waysIntoBody, waysIntoBody]
  rcases hrevised.part?_plain "body" rfl with
    ⟨hbefore, hafter⟩ | ⟨old, new, hold, hnew, hpart⟩
  · rw [hbefore, hafter]
    exact .nil
  · rw [hold, hnew]
    cases hvalue : old.value with
    | array items =>
      obtain ⟨others, hother⟩ := (hvalue ▸ hpart).of_array
      obtain ⟨parts, hparts, -⟩ := Part.elements_of_array hvalue
      obtain ⟨newParts, hnewParts, hrelated⟩ := Part.Revised.elements_follows hpart parts hparts
      simp only [hvalue, hother, hparts, hnewParts]
      exact itemWays_sameWay hrelated
    | node tag fields =>
      obtain ⟨others, hother⟩ := (hvalue ▸ hpart).of_node
      simp only [hvalue, hother]
      by_cases hblock : Kind.ofTag tag = .blockStatement
      · exact (if_pos hblock).symm ▸ (if_pos hblock).symm ▸ .cons ⟨rfl, hpart⟩ .nil
      · exact (if_neg hblock).symm ▸ (if_neg hblock).symm ▸ .nil
    | _ =>
      have hsame := hpart.eq_of_leaf (by rw [hvalue]; rfl)
      simp only [hsame, hvalue]
      exact .nil

/-- The search goes on to the same parts after a renaming. -/
theorem searchWays_sameWay :
    List.Forall₂ (SameWay registry) before.searchWays after.searchWays := by
  have hkind := hrevised.kind_eq
  by_cases hcall : before.kind = .callExpression
  · rw [searchWays_call hcall, searchWays_call (hkind.trans hcall)]
    exact hrevised.wayInto_sameWay rfl
  by_cases hunary : before.kind = .unaryExpression
  · rw [searchWays_unary hunary, searchWays_unary (hkind.trans hunary)]
    exact hrevised.wayInto_sameWay rfl
  by_cases hstatement : before.kind = .expressionStatement
  · rw [searchWays_statement hstatement, searchWays_statement (hkind.trans hstatement)]
    exact hrevised.wayInto_sameWay rfl
  rw [searchWays_other hcall hunary hstatement,
    searchWays_other (hkind ▸ hcall) (hkind ▸ hunary) (hkind ▸ hstatement)]
  have hnode : after.isNode = before.isNode := by cases hrevised.revision <;> rfl
  rw [hnode]
  cases before.isNode with
  | true => exact hrevised.waysIntoBody_sameWay
  | false => exact .nil

end Revised

/-- The way to what is found in a part goes through the way to the part. -/
theorem map_fst_through (way : Position) (found : Except Fault (Option (Position × Value))) :
    (found >>= fun found? => pure (found?.map fun inner => (way ++ inner.1, inner.2))).map
        (Option.map Prod.fst) =
      (found.map (Option.map Prod.fst)).map (Option.map (way ++ ·)) := by
  cases found with
  | error fault => rfl
  | ok found? => cases found? <;> rfl

/-- The search takes the same way before and after a renaming, and fails alike. -/
theorem locateWrapper?_of_revised {before after : Value}
    (hrevised : Revised registry before after) :
    after.locateWrapper?.map (Option.map Prod.fst) =
      before.locateWrapper?.map (Option.map Prod.fst) := by
  rw [locateWrapper?, locateWrapper?, hrevised.endsSearch_eq]
  cases before.endsSearch with
  | error fault => rfl
  | ok ends =>
    cases ends with
    | true => rfl
    | false =>
      show (findFirst? _ _).map _ = (findFirst? _ _).map _
      rw [findFirst?_map, findFirst?_map]
      refine (findFirst?_congr hrevised.searchWays_sameWay fun old new hway => ?_).symm
      have hsmaller := old.2.smaller
      have hinner := locateWrapper?_of_revised hway.2
      rw [map_fst_through, map_fst_through, hinner, hway.1]
termination_by before.size

/-- A search that finds something finds it at the place where it stood before. -/
theorem exists_locateWrapper? {position : Position} {other : Value}
    (hsame : other.locateWrapper?.map (Option.map Prod.fst) =
      value.locateWrapper?.map (Option.map Prod.fst))
    (hfound : value.locateWrapper? = .ok (some (position, wrapper))) :
    ∃ found, other.locateWrapper? = .ok (some (position, found)) := by
  rw [hfound] at hsame
  obtain ⟨found?, hother, hfst⟩ := map_eq_ok_iff.1 hsame
  obtain ⟨found, rfl, rfl⟩ := Option.map_eq_some_iff.1 hfst
  exact ⟨found.2, hother⟩

theorem findWrapper?_eq_some_iff :
    value.findWrapper? = .ok (some wrapper) ↔
      ∃ position, value.locateWrapper? = .ok (some (position, wrapper)) := by
  rw [findWrapper?_eq_locateWrapper?, map_eq_ok_iff]
  constructor
  · rintro ⟨found?, hlocate, hsnd⟩
    obtain ⟨found, rfl, rfl⟩ := Option.map_eq_some_iff.1 hsnd
    exact ⟨found.1, hlocate⟩
  · rintro ⟨position, hlocate⟩
    exact ⟨_, hlocate, rfl⟩

theorem findWrapper?_eq_none_iff :
    value.findWrapper? = .ok none ↔
      value.locateWrapper?.map (Option.map Prod.fst) = .ok none := by
  rw [findWrapper?_eq_locateWrapper?]
  simp only [map_eq_ok_iff, Option.map_eq_none_iff]

/-- The statements that are left of a module body without the function around it.  A body
that is no block is one statement. -/
def moduleStatements (body : Value) : Except Fault (List Value) :=
  if body.kind = .blockStatement then (body.listAt "body").map (List.map Part.value)
  else .ok [Build.perform body]

/-- A script of these statements. -/
def programOf (statements : List Value) : Value :=
  .node "Program" [("body", .array statements)]

theorem findFirst?_eq_none {α β : Type} {find : α → Except Fault (Option β)} {items : List α}
    (hnone : ∀ item ∈ items, find item = .ok none) : findFirst? find items = .ok none := by
  induction items with
  | nil => rfl
  | cons item rest ih =>
    rw [findFirst?_cons, hnone item List.mem_cons_self]
    exact ih fun other hother => hnone other (List.mem_cons_of_mem item hother)

theorem findWrapper?_of_not_node (hnode : value.isNode = false) :
    value.findWrapper? = .ok none := by
  have hkind : value.kind = .unknown := by
    cases value with
    | node => cases hnode
    | _ => rfl
  rw [findWrapper?_eq, endsSearch_of_kind (by rw [hkind]; decide),
    searchWays_other (by rw [hkind]; decide) (by rw [hkind]; decide) (by rw [hkind]; decide), hnode]
  rfl

/-- A node that is searched in its body: a script or a block, for example. -/
theorem findWrapper?_of_bodied (hkind : value.kind = kind)
    (hbodied : kind = .program ∨ kind = .blockStatement) :
    value.findWrapper? = findFirst? (fun way => way.2.value.findWrapper?) value.waysIntoBody := by
  rw [findWrapper?_eq]
  rcases hbodied with rfl | rfl
  all_goals
    rw [endsSearch_of_kind (by rw [hkind]; decide), searchWays_other (by rw [hkind]; decide)
      (by rw [hkind]; decide) (by rw [hkind]; decide), isNode_of_kind hkind (by decide)]
    rfl

theorem findFirst?_waysIntoBody (hbody : value.lookup "body" = some (.array items)) :
    findFirst? (fun way => way.2.value.findWrapper?) value.waysIntoBody =
      findFirst? findWrapper? items := by
  obtain ⟨body, hpart, hvalue⟩ := exists_part hbody
  obtain ⟨parts, hparts, rfl⟩ := Part.elements_of_array hvalue
  have hways : value.waysIntoBody = itemWays parts := by
    rw [waysIntoBody, hpart]
    simp only [hvalue, hparts]
    rfl
  have hvalues : List.Forall₂ (fun part item => part.value = item) parts
      (parts.map Part.value) := by
    rw [List.forall₂_map_right_iff, List.forall₂_same]
    exact fun _ _ => rfl
  have hparts : findFirst? (fun part => part.value.findWrapper?) parts =
      findFirst? findWrapper? (parts.map Part.value) :=
    findFirst?_congr hvalues fun part item hitem => hitem ▸ rfl
  rw [hways, ← hparts]
  exact findFirst?_itemWays (fun part => part.value.findWrapper?) parts

theorem waysIntoBody_of_leaf
    (hleaf : ∀ body, value.lookup "body" = some body → body.isBranch = false) :
    value.waysIntoBody = [] := by
  rw [waysIntoBody]
  cases hpart : value.part? "body" with
  | none => rfl
  | some body =>
    have hbody := hleaf body.value (lookup_of_part? hpart)
    cases hvalue : body.value with
    | array items =>
      rw [hvalue] at hbody
      cases hbody
    | node tag fields =>
      rw [hvalue] at hbody
      cases hbody
    | _ => simp only [hvalue]

/-- Only an array has items that are nodes. -/
theorem isNode_of_elements (hleaf : value.isBranch = false)
    (helements : value.elements = .ok items) : ∀ item ∈ items, item.isNode = false := by
  intro item hitem
  cases value with
  | array => cases hleaf
  | node => cases hleaf
  | text content =>
    cases helements
    obtain ⟨char, -, rfl⟩ := List.mem_map.1 hitem
    rfl
  | mapping fields =>
    cases helements
    obtain ⟨entry, -, rfl⟩ := List.mem_map.1 hitem
    rfl
  | _ => cases helements

/-- A script of the statements of a block is searched like the block. -/
theorem findFirst?_of_listAt {block : Value}
    (hstatements : (block.listAt "body").map (List.map Part.value) = .ok statements) :
    findFirst? findWrapper? statements =
      findFirst? (fun way => way.2.value.findWrapper?) block.waysIntoBody := by
  rw [listAt_map_value] at hstatements
  cases hlookup : block.lookup "body" with
  | none =>
    rw [hlookup] at hstatements
    cases hstatements
    rw [waysIntoBody_of_leaf fun body hbody => by cases hlookup.symm.trans hbody]
    rfl
  | some held =>
    rw [hlookup] at hstatements
    replace hstatements : (if held.isTruthy then held.elements else .ok []) = .ok statements :=
      hstatements
    cases hbranch : held.isBranch with
    | false =>
      have hleaf : ∀ body, block.lookup "body" = some body → body.isBranch = false := by
        intro body hbody
        cases hlookup.symm.trans hbody
        exact hbranch
      rw [waysIntoBody_of_leaf hleaf]
      refine findFirst?_eq_none fun item hitem => findWrapper?_of_not_node ?_
      split_ifs at hstatements
      · exact isNode_of_elements hbranch hstatements item hitem
      · cases hstatements
        cases hitem
    | true =>
      cases held with
      | array items =>
        rw [findFirst?_waysIntoBody hlookup]
        cases items <;> cases hstatements <;> rfl
      | node => cases hstatements
      | _ => cases hbranch

/-- A script of the statements of a module body is searched like the body. -/
theorem findWrapper?_programOf {body : Value}
    (hstatements : body.moduleStatements = .ok statements) :
    (programOf statements).findWrapper? = body.findWrapper? := by
  rw [findWrapper?_of_bodied rfl (.inl rfl), findFirst?_waysIntoBody rfl]
  rw [moduleStatements] at hstatements
  split_ifs at hstatements with hblock
  · rw [findWrapper?_of_bodied hblock (.inr rfl)]
    exact findFirst?_of_listAt hstatements
  · cases hstatements
    have hkind : (Build.perform body).kind = .expressionStatement := rfl
    rw [findFirst?_singleton, findWrapper?_eq (Build.perform body),
      endsSearch_of_kind (by rw [hkind]; decide), searchWays_statement hkind]
    exact findFirst?_wayInto _ _

end Value

/-- A renaming neither makes nor hides a wrapper: the search finds one in the body of a
renamed module function if it finds one in the body before, and then at the same place.  So
a script of the statements of the renamed module has no wrapper exactly if the body had
none. -/
theorem renameModule_keeps_wrapper {registry : Registry} {module : Value} {renamed : Renamed}
    (hfunction : module.isFunctionModule = true)
    (hrename : renameModule registry module = .ok renamed) :
    ∃ body processed, module.lookup "body" = some body ∧
      (renamed.module.apply module).lookup "body" = some processed ∧
      ((∃ wrapper, processed.findWrapper? = .ok (some wrapper)) ↔
        ∃ wrapper, body.findWrapper? = .ok (some wrapper)) ∧
      (∀ wrapper found, body.findWrapper? = .ok (some wrapper) →
        processed.findWrapper? = .ok (some found) →
        ∃ position, body.locateWrapper? = .ok (some (position, wrapper)) ∧
          processed.locateWrapper? = .ok (some (position, found)) ∧
          body.at? position = some wrapper ∧ processed.at? position = some found) ∧
      ∀ statements, processed.moduleStatements = .ok statements →
        ((Value.programOf statements).findWrapper? = .ok none ↔ body.findWrapper? = .ok none) := by
  obtain ⟨-, tag, fields, body, rfl, hbody⟩ := Value.isFunctionModule_cases hfunction
  obtain ⟨params, roles, -, -, hmodule, hrenames⟩ := renameModule_eq_ok hfunction hbody hrename
  have hsame := Value.locateWrapper?_of_revised ⟨roles, hrenames⟩
  refine ⟨body, renamed.body.apply body, hbody, ?_, ?_, ?_, ?_⟩
  · rw [hmodule, Value.lookup_node, Fields.get?_set, if_pos rfl]
  · simp only [Value.findWrapper?_eq_some_iff]
    constructor
    · rintro ⟨_, position, hfound⟩
      obtain ⟨wrapper, hwrapper⟩ := Value.exists_locateWrapper? hsame.symm hfound
      exact ⟨wrapper, position, hwrapper⟩
    · rintro ⟨_, position, hfound⟩
      obtain ⟨wrapper, hwrapper⟩ := Value.exists_locateWrapper? hsame hfound
      exact ⟨wrapper, position, hwrapper⟩
  · intro wrapper found hwrapper hfound
    obtain ⟨position, hlocated⟩ := Value.findWrapper?_eq_some_iff.1 hwrapper
    obtain ⟨other, hother⟩ := Value.findWrapper?_eq_some_iff.1 hfound
    obtain ⟨processed, hprocessed⟩ := Value.exists_locateWrapper? hsame hlocated
    cases hprocessed.symm.trans hother
    exact ⟨position, hlocated, hprocessed, Value.at?_of_locateWrapper? hlocated,
      Value.at?_of_locateWrapper? hprocessed⟩
  · intro statements hstatements
    rw [Value.findWrapper?_programOf hstatements, Value.findWrapper?_eq_none_iff, hsame,
      Value.findWrapper?_eq_none_iff]

/-- The call `(function (m) { callee(id); })([item])`. -/
def bundlingCall (callee : String) (id : Value) (item : String) : Value :=
  Build.call (Build.function [Build.name "m"] [Build.perform (Build.call (Build.name callee) [id])])
    [Build.array [Build.name item]]

/-- The module function `function (e, t, n) { (function (m) { callee(id); })([item]); }`,
which is a bundle within a bundle. -/
def bundlingModule (callee : String) (id : Value) (item : String) : Value :=
  Build.function [Build.name "e", Build.name "t", Build.name "n"]
    [Build.perform (bundlingCall callee id item)]

theorem renameModule_keeps_wrapper_bundling :
    ∃ registry renamed, (bundlingModule "n" (Build.number 1) "e").isFunctionModule = true ∧
      renameModule registry (bundlingModule "n" (Build.number 1) "e") = .ok renamed ∧
      renamed.module.apply (bundlingModule "n" (Build.number 1) "e") =
        bundlingModule "require" (requirePath (.text "Foo")) "module" ∧
      ∃ body processed, (bundlingModule "n" (Build.number 1) "e").lookup "body" = some body ∧
        (bundlingModule "require" (requirePath (.text "Foo")) "module").lookup "body" =
          some processed ∧
        body.locateWrapper? = .ok (some ([.field "body", .item 0, .field "expression"],
          bundlingCall "n" (Build.number 1) "e")) ∧
        processed.locateWrapper? = .ok (some ([.field "body", .item 0, .field "expression"],
          bundlingCall "require" (requirePath (.text "Foo")) "module")) := by
  have hresult : (renameModule { names := [(1, .text "Foo")] }
      (bundlingModule "n" (Build.number 1) "e")).toOption.map
        (fun renamed => renamed.module.apply (bundlingModule "n" (Build.number 1) "e")) =
      some (bundlingModule "require" (requirePath (.text "Foo")) "module") := by
    decide +kernel
  have hsearch : (Build.block [Build.perform
      (bundlingCall "n" (Build.number 1) "e")]).locateWrapper?.toOption.map id =
        some (some ([.field "body", .item 0, .field "expression"],
          bundlingCall "n" (Build.number 1) "e")) := by
    decide +kernel
  obtain ⟨renamed, hrename, hmodule⟩ := of_toOption_map hresult
  obtain ⟨_, hlocated, rfl⟩ := of_toOption_map hsearch
  obtain ⟨body, processed, hbody, hprocessed, hsame, hplace, -⟩ :=
    renameModule_keeps_wrapper (by decide) hrename
  rw [hmodule] at hprocessed
  cases hbody
  cases hprocessed
  -- The wrapper of the renamed body is what stands at the place of the old one.
  have hfound := Value.findWrapper?_eq_some_iff.2 ⟨_, hlocated⟩
  obtain ⟨wrapper, hwrapper⟩ := hsame.2 ⟨_, hfound⟩
  obtain ⟨position, hposition, hagain, -, hvalue⟩ := hplace _ _ hfound hwrapper
  cases hposition.symm.trans hlocated
  cases hvalue
  exact ⟨_, renamed, by decide, hrename, hmodule, _, _, rfl, rfl, hlocated, hagain⟩

end Debundle
