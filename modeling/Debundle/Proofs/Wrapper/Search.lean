import Debundle.Proofs.Attempt
import Debundle.Proofs.Tree.Position
import Debundle.Wrapper

/-!
# The way to the wrapper

The search for the wrapper goes down from value to value.  Here the same search also tells
the way that it took, so that what it finds in two trees can be compared by place.
-/

namespace Debundle

open Attempt

theorem Part.elements_of_array {whole : Value} {part : Part whole} {items : List Value}
    (harray : part.value = .array items) :
    ∃ parts, part.elements = .ok parts ∧ parts.map Part.value = items := by
  rw [← map_eq_ok_iff, Part.elements_map_value, harray]
  rfl

namespace Value

section FindFirst

variable {α β γ : Type} {find : α → Except Fault (Option β)} {items : List α}

theorem findFirst?_cons (item : α) (rest : List α) :
    findFirst? find (item :: rest) =
      find item >>= fun found? =>
        found?.elim (findFirst? find rest) fun found => .ok (some found) := by
  rw [findFirst?]
  cases find item with
  | error fault => rfl
  | ok found? => cases found? <;> rfl

theorem findFirst?_singleton (item : α) : findFirst? find [item] = find item := by
  rw [findFirst?_cons]
  cases find item with
  | error fault => rfl
  | ok found? => cases found? <;> rfl

theorem findFirst?_map (f : β → γ) (items : List α) :
    (findFirst? find items).map (Option.map f) =
      findFirst? (fun item => (find item).map (Option.map f)) items := by
  induction items with
  | nil => rfl
  | cons item rest ih =>
    rw [findFirst?_cons, findFirst?_cons]
    cases find item with
    | error fault => rfl
    | ok found? =>
      cases found? with
      | none => exact ih
      | some found => rfl

/-- Two searches that find the same in each item find the same. -/
theorem findFirst?_congr {relation : α → γ → Prop} {search : γ → Except Fault (Option β)}
    {others : List γ} (hitems : List.Forall₂ relation items others)
    (hsame : ∀ item other, relation item other → find item = search other) :
    findFirst? find items = findFirst? search others := by
  induction hitems with
  | nil => rfl
  | cons hfirst _ ih => rw [findFirst?_cons, findFirst?_cons, hsame _ _ hfirst, ih]

theorem exists_of_findFirst? {found : β} (hfound : findFirst? find items = .ok (some found)) :
    ∃ item ∈ items, find item = .ok (some found) := by
  induction items with
  | nil => cases hfound
  | cons item rest ih =>
    rw [findFirst?_cons, bind_eq_ok_iff] at hfound
    obtain ⟨found?, hitem, hrest⟩ := hfound
    cases found? with
    | none =>
      obtain ⟨other, hother, hfind⟩ := ih hrest
      exact ⟨other, List.mem_cons_of_mem item hother, hfind⟩
    | some first =>
      cases hrest
      exact ⟨item, List.mem_cons_self, hitem⟩

end FindFirst

/-- Whether the search ends at a value because it is a wrapper.  Its modules are counted
then. -/
def endsSearch (value : Value) : Except Fault Bool := do
  if ← value.isWrapper then
    let _ ← value.moduleCount
    return true
  return false

/-- The part in a field, and the way to it. -/
def wayInto (value : Value) (key : String) : List (Position × Part value) :=
  (value.part? key).toList.map fun part => ([.field key], part)

/-- The items of a body, and the ways to them. -/
def itemWays {whole : Value} (items : List (Part whole)) : List (Position × Part whole) :=
  items.zipIdx.map fun entry => ([.field "body", .item entry.2], entry.1)

/-- The parts of a body that the search goes on to: the items of an array, or a block. -/
def waysIntoBody (value : Value) : List (Position × Part value) :=
  match value.part? "body" with
  | none => []
  | some body =>
    match body.value with
    | .array _ => itemWays (body.elements.toOption.getD [])
    | .node .. =>
      if body.value.kind = .blockStatement then [([.field "body"], body)] else []
    | _ => []

/-- The parts that the search goes on to from a value that is no wrapper, in order. -/
def searchWays (value : Value) : List (Position × Part value) :=
  match value.kind with
  | .callExpression => value.wayInto "callee"
  | .unaryExpression => value.wayInto "argument"
  | .expressionStatement => value.wayInto "expression"
  | _ => if value.isNode then value.waysIntoBody else []

/-- The first wrapper in a value, and the way to it. -/
def locateWrapper? (value : Value) : Except Fault (Option (Position × Value)) := do
  if ← value.endsSearch then return some ([], value)
  findFirst? (fun way => do
    let found? ← way.2.value.locateWrapper?
    return found?.map fun found => (way.1 ++ found.1, found.2)) value.searchWays
termination_by value.size
decreasing_by exact way.2.smaller

variable {value : Value}

theorem isWrapper_of_kind (hkind : value.kind ≠ .callExpression) : value.isWrapper = .ok false := by
  rw [isWrapper, if_pos hkind]
  rfl

theorem endsSearch_of_kind (hkind : value.kind ≠ .callExpression) :
    value.endsSearch = .ok false := by
  rw [endsSearch, isWrapper_of_kind hkind]
  rfl

theorem searchWays_call (hkind : value.kind = .callExpression) :
    value.searchWays = value.wayInto "callee" := by
  simp only [searchWays, hkind]

theorem searchWays_unary (hkind : value.kind = .unaryExpression) :
    value.searchWays = value.wayInto "argument" := by
  simp only [searchWays, hkind]

theorem searchWays_statement (hkind : value.kind = .expressionStatement) :
    value.searchWays = value.wayInto "expression" := by
  simp only [searchWays, hkind]

theorem searchWays_other (hcall : value.kind ≠ .callExpression)
    (hunary : value.kind ≠ .unaryExpression) (hstatement : value.kind ≠ .expressionStatement) :
    value.searchWays = if value.isNode then value.waysIntoBody else [] := by
  rw [searchWays]
  split
  · rename_i hkind
    exact absurd hkind hcall
  · rename_i hkind
    exact absurd hkind hunary
  · rename_i hkind
    exact absurd hkind hstatement
  · rfl

theorem findFirst?_wayInto (value : Value) (key : String) :
    findFirst? (fun way => way.2.value.findWrapper?) (value.wayInto key) =
      (value.part? key).elim (.ok none) fun part => part.value.findWrapper? := by
  rw [wayInto]
  cases value.part? key with
  | none => rfl
  | some part => exact findFirst?_singleton _

/-- Of an array all items are searched in order. -/
theorem findFirst?_itemWays {whole : Value} {β : Type}
    (find : Part whole → Except Fault (Option β)) (parts : List (Part whole)) :
    findFirst? (fun way => find way.2) (itemWays parts) = findFirst? find parts := by
  have hrelated : ∀ start, List.Forall₂ (fun way part => way.2 = part)
      ((parts.zipIdx start).map fun entry =>
        (([.field "body", .item entry.2], entry.1) : Position × Part whole)) parts := by
    induction parts with
    | nil => exact fun _ => .nil
    | cons part rest ih => exact fun start => .cons rfl (ih (start + 1))
  exact findFirst?_congr (hrelated 0) fun way part hway => hway ▸ rfl

/-- The search ends at a value, or goes on to the parts that it can reach from there. -/
theorem findWrapper?_eq (value : Value) :
    value.findWrapper? = value.endsSearch >>= fun ends =>
      if ends then .ok (some value)
      else findFirst? (fun way => way.2.value.findWrapper?) value.searchWays := by
  rw [findWrapper?]
  split
  · rename_i hkind
    rw [searchWays_call hkind, findFirst?_wayInto, endsSearch]
    cases value.isWrapper with
    | error fault => rfl
    | ok isWrapper =>
      cases isWrapper with
      | true => cases value.moduleCount <;> rfl
      | false => cases value.part? "callee" <;> rfl
  · rename_i hkind
    rw [endsSearch_of_kind (by rw [hkind]; decide), searchWays_unary hkind, findFirst?_wayInto]
    cases value.part? "argument" <;> rfl
  · rename_i hkind
    rw [endsSearch_of_kind (by rw [hkind]; decide), searchWays_statement hkind, findFirst?_wayInto]
    cases value.part? "expression" <;> rfl
  · rename_i hcall hunary hstatement
    rw [endsSearch_of_kind hcall, searchWays_other hcall hunary hstatement]
    cases hnode : value.isNode with
    | false => rfl
    | true =>
      show _ = findFirst? _ value.waysIntoBody
      rw [waysIntoBody]
      cases value.part? "body" with
      | none => rfl
      | some body =>
        cases hbody : body.value with
        | array items =>
          obtain ⟨parts, hparts, -⟩ := Part.elements_of_array hbody
          simp only [hbody, hparts]
          exact (findFirst?_itemWays _ parts).symm
        | node tag fields =>
          simp only [hbody]
          by_cases hblock : (Value.node tag fields).kind = .blockStatement
          · rw [if_pos hblock, if_pos hblock, ← hbody]
            exact (findFirst?_singleton _).symm
          · rw [if_neg hblock, if_neg hblock]
            rfl
        | _ =>
          simp only [hbody]
          rfl

/-- What the search finds is what it finds with the way to it. -/
theorem findWrapper?_eq_locateWrapper? (value : Value) :
    value.findWrapper? = value.locateWrapper?.map (Option.map Prod.snd) := by
  rw [findWrapper?_eq, locateWrapper?]
  cases value.endsSearch with
  | error fault => rfl
  | ok ends =>
    cases ends with
    | true => rfl
    | false =>
      show findFirst? _ _ = (findFirst? _ _).map _
      rw [findFirst?_map]
      refine congrArg (findFirst? · value.searchWays) (funext fun way => ?_)
      have hsmaller := way.2.smaller
      rw [findWrapper?_eq_locateWrapper? way.2.value]
      cases way.2.value.locateWrapper? with
      | error fault => rfl
      | ok found? => cases found? <;> rfl
termination_by value.size

theorem at?_of_part? {key : String} {part : Part value} (hnode : value.isNode = true)
    (hpart : value.part? key = some part) : value.at? [.field key] = some part.value := by
  have hlookup := lookup_of_part? hpart
  cases value with
  | node tag fields => simpa using hlookup
  | _ => cases hnode

theorem at?_wayInto {key : String} {way : Position × Part value} (hnode : value.isNode = true)
    (hway : way ∈ value.wayInto key) : value.at? way.1 = some way.2.value := by
  rw [wayInto, List.mem_map] at hway
  obtain ⟨part, hpart, rfl⟩ := hway
  exact at?_of_part? hnode (Option.mem_toList.1 hpart)

theorem at?_itemWays {items : List Value} {parts : List (Part value)}
    {way : Position × Part value} (hbody : value.at? [.field "body"] = some (.array items))
    (hparts : parts.map Part.value = items) (hway : way ∈ itemWays parts) :
    value.at? way.1 = some way.2.value := by
  rw [itemWays, List.mem_map] at hway
  obtain ⟨entry, hentry, rfl⟩ := hway
  have hitem : items[entry.2]? = some entry.1.value := by
    rw [← hparts, List.getElem?_map, List.mem_zipIdx_iff_getElem?.1 hentry, Option.map_some]
  rw [← List.singleton_append, at?_append, hbody]
  simpa using hitem

theorem at?_waysIntoBody {way : Position × Part value} (hnode : value.isNode = true)
    (hway : way ∈ value.waysIntoBody) : value.at? way.1 = some way.2.value := by
  rw [waysIntoBody] at hway
  cases hpart : value.part? "body" with
  | none =>
    rw [hpart] at hway
    cases hway
  | some body =>
    rw [hpart] at hway
    have hat := at?_of_part? hnode hpart
    cases hbody : body.value with
    | array items =>
      obtain ⟨parts, hparts, hitems⟩ := Part.elements_of_array hbody
      simp only [hbody, hparts] at hway
      exact at?_itemWays (hbody ▸ hat) hitems hway
    | node tag fields =>
      simp only [hbody] at hway
      by_cases hblock : (Value.node tag fields).kind = .blockStatement
      · rw [if_pos hblock, List.mem_singleton] at hway
        rw [hway]
        exact hat
      · rw [if_neg hblock] at hway
        cases hway
    | _ =>
      simp only [hbody] at hway
      cases hway

theorem isNode_of_kind {kind : Kind} (hkind : value.kind = kind) (hknown : kind ≠ .unknown) :
    value.isNode = true := by
  cases value with
  | node => rfl
  | _ => exact absurd hkind.symm hknown

/-- A way leads to its part. -/
theorem at?_searchWays {way : Position × Part value} (hway : way ∈ value.searchWays) :
    value.at? way.1 = some way.2.value := by
  rw [searchWays] at hway
  split at hway
  · rename_i hkind
    exact at?_wayInto (isNode_of_kind hkind (by decide)) hway
  · rename_i hkind
    exact at?_wayInto (isNode_of_kind hkind (by decide)) hway
  · rename_i hkind
    exact at?_wayInto (isNode_of_kind hkind (by decide)) hway
  · cases hnode : value.isNode with
    | false =>
      rw [hnode] at hway
      cases hway
    | true =>
      rw [hnode, if_pos rfl] at hway
      exact at?_waysIntoBody hnode hway

/-- The wrapper stands at the position that the search tells. -/
theorem at?_of_locateWrapper? {value wrapper : Value} {position : Position}
    (hfound : value.locateWrapper? = .ok (some (position, wrapper))) :
    value.at? position = some wrapper := by
  rw [locateWrapper?, bind_eq_ok_iff] at hfound
  obtain ⟨ends, -, hfound⟩ := hfound
  cases ends with
  | true =>
    cases hfound
    rfl
  | false =>
    obtain ⟨way, hway, hfind⟩ := exists_of_findFirst? hfound
    simp only [bind_eq_ok_iff, pure_eq_ok_iff] at hfind
    obtain ⟨found?, hpart, hfind⟩ := hfind
    obtain ⟨found, rfl, heq⟩ := Option.map_eq_some_iff.1 hfind
    have hsmaller := way.2.smaller
    have hinner := at?_of_locateWrapper? hpart
    cases heq
    rw [at?_append, at?_searchWays hway, Option.bind_some, hinner]
termination_by value.size

end Value

end Debundle
