import Debundle.Proofs.Wrapper.Renamed
import Mathlib.Data.List.Pairwise

/-!
# The first wrapper

Which wrapper the search finds is told here without the search.  A relation says where the
search may go on from a value, and an order of positions says what it meets first.  The search
commits itself to nothing on the way: it finds the first of all wrappers that can be reached,
and none only if there is none.  The modules of what it finds are counted, which fails on a
wrapper whose array holds something that has no length.
-/

namespace Debundle

/-- The first position comes before the second one when a tree is gone through depth first. -/
inductive Position.Before : Position → Position → Prop where
  | under (step : Step) (rest : Position) : Before [] (step :: rest)
  | item {index later : Nat} (front back : Position) :
      index < later → Before (.item index :: front) (.item later :: back)
  | inside (step : Step) {front back : Position} :
      Before front back → Before (step :: front) (step :: back)

namespace Position

theorem Before.append_left {front back : Position} (way : Position) (hbefore : Before front back) :
    Before (way ++ front) (way ++ back) := by
  induction way with
  | nil => exact hbefore
  | cons step way ih => exact .inside step ih

theorem Before.asymm {first second : Position} (hbefore : Before first second) :
    ¬ Before second first := by
  induction hbefore with
  | under => rintro ⟨⟩
  | item front back hless =>
    rintro (_ | ⟨_, _, hmore⟩ | ⟨_, _⟩)
    · exact absurd hless (Nat.not_lt.2 hmore.le)
    · exact absurd hless (Nat.lt_irrefl _)
  | inside step _ ih =>
    rintro (_ | ⟨_, _, hmore⟩ | ⟨_, hinside⟩)
    · exact absurd hmore (Nat.lt_irrefl _)
    · exact ih hinside

end Position

namespace Value

open Position (Before)

/-- A node that the search enters by its body, if at all. -/
structure IsBodied (node : Value) : Prop where
  isNode : node.isNode = true
  ne_call : node.kind ≠ .callExpression
  ne_unary : node.kind ≠ .unaryExpression
  ne_statement : node.kind ≠ .expressionStatement

/-- The search may go on from a value to one inside it. -/
inductive LeadsTo : Value → Position → Value → Prop where
  | callee {node child : Value} :
      node.kind = .callExpression → node.isWrapper = .ok false →
      node.lookup "callee" = some child → LeadsTo node [.field "callee"] child
  | argument {node child : Value} :
      node.kind = .unaryExpression → node.lookup "argument" = some child →
      LeadsTo node [.field "argument"] child
  | expression {node child : Value} :
      node.kind = .expressionStatement → node.lookup "expression" = some child →
      LeadsTo node [.field "expression"] child
  | statement {node child : Value} {items : List Value} {index : Nat} :
      node.IsBodied → node.lookup "body" = some (.array items) → items[index]? = some child →
      LeadsTo node [.field "body", .item index] child
  | block {node child : Value} :
      node.IsBodied → node.lookup "body" = some child → child.kind = .blockStatement →
      LeadsTo node [.field "body"] child

/-- The search may come from a value to the one at a position inside it. -/
inductive Reaches : Value → Position → Value → Prop where
  | here (node : Value) : Reaches node [] node
  | step {node child found : Value} {way rest : Position} :
      LeadsTo node way child → Reaches child rest found → Reaches node (way ++ rest) found

/-- A wrapper that can be reached before all others. -/
structure IsFirstWrapper (root : Value) (position : Position) (wrapper : Value) : Prop where
  reaches : Reaches root position wrapper
  isWrapper : wrapper.isWrapper = .ok true
  first : ∀ other found, Reaches root other found → found.isWrapper = .ok true →
    other = position ∨ Before position other

/-- No wrapper can be reached. -/
def IsWrapperFree (root : Value) : Prop :=
  ∀ position found, Reaches root position found → found.isWrapper ≠ .ok true

/-- Layers of values around a wrapper.  The statements before it in a body have no wrapper. -/
inductive Layered (wrapper : Value) : Value → Prop where
  | wrapper : wrapper.isWrapper = .ok true → Layered wrapper wrapper
  | around {node child : Value} {key : String} :
      LeadsTo node [.field key] child → Layered wrapper child → Layered wrapper node
  | among {node child : Value} {front back : List Value} :
      node.IsBodied → node.lookup "body" = some (.array (front ++ child :: back)) →
      (∀ statement ∈ front, statement.IsWrapperFree) → Layered wrapper child →
      Layered wrapper node

/-- Every value inside can be told to be a wrapper or not. -/
def IsDecided (root : Value) : Prop :=
  ∀ position node, root.at? position = some node → ∃ answer, node.isWrapper = .ok answer

variable {root node child found wrapper : Value} {way position other : Position}

/-- The search goes on only from what is no wrapper. -/
theorem isWrapper_of_leadsTo (hleads : LeadsTo node way child) : node.isWrapper = .ok false := by
  cases hleads with
  | callee _ hno _ => exact hno
  | argument hkind _ => exact isWrapper_of_kind (by rw [hkind]; decide)
  | expression hkind _ => exact isWrapper_of_kind (by rw [hkind]; decide)
  | statement hbodied _ _ => exact isWrapper_of_kind hbodied.ne_call
  | block hbodied _ _ => exact isWrapper_of_kind hbodied.ne_call

theorem mem_wayInto_iff {key : String} :
    (∃ part, (way, part) ∈ node.wayInto key ∧ part.value = child) ↔
      way = [.field key] ∧ node.lookup key = some child := by
  constructor
  · rintro ⟨part, hway, rfl⟩
    obtain ⟨_, hpart, heq⟩ := List.mem_map.1 hway
    cases heq
    exact ⟨rfl, lookup_of_part? (Option.mem_toList.1 hpart)⟩
  · rintro ⟨rfl, hlookup⟩
    obtain ⟨part, hpart, rfl⟩ := exists_part hlookup
    exact ⟨part, List.mem_map.2 ⟨part, Option.mem_toList.2 hpart, rfl⟩, rfl⟩

theorem mem_itemWays_iff {parts : List (Part node)} :
    (∃ part, (way, part) ∈ itemWays parts ∧ part.value = child) ↔
      ∃ index, way = [.field "body", .item index] ∧
        (parts.map Part.value)[index]? = some child := by
  constructor
  · rintro ⟨part, hway, rfl⟩
    obtain ⟨⟨_, index⟩, hentry, heq⟩ := List.mem_map.1 hway
    cases heq
    refine ⟨index, rfl, ?_⟩
    rw [List.getElem?_map, List.mem_zipIdx_iff_getElem?.1 hentry, Option.map_some]
  · rintro ⟨index, rfl, hitem⟩
    rw [List.getElem?_map, Option.map_eq_some_iff] at hitem
    obtain ⟨part, hpart, rfl⟩ := hitem
    have hentry : (part, index) ∈ parts.zipIdx := List.mem_zipIdx_iff_getElem?.2 hpart
    exact ⟨part, List.mem_map.2 ⟨(part, index), hentry, rfl⟩, rfl⟩

theorem mem_waysIntoBody_iff :
    (∃ part, (way, part) ∈ node.waysIntoBody ∧ part.value = child) ↔
      (∃ items index, node.lookup "body" = some (.array items) ∧
        way = [.field "body", .item index] ∧ items[index]? = some child) ∨
      (way = [.field "body"] ∧ node.lookup "body" = some child ∧
        child.kind = .blockStatement) := by
  rw [waysIntoBody]
  cases hpart : node.part? "body" with
  | none => simp [part?_eq_none_iff.1 hpart]
  | some body =>
    rw [lookup_of_part? hpart]
    cases hbody : body.value with
    | array items =>
      obtain ⟨parts, hparts, hitems⟩ := Part.elements_of_array hbody
      simp only [hbody, hparts, Except.toOption, Option.getD_some, mem_itemWays_iff, hitems,
        Option.some.injEq, Value.array.injEq]
      constructor
      · rintro ⟨index, hway, hitem⟩
        exact .inl ⟨items, index, rfl, hway, hitem⟩
      · rintro (⟨_, index, rfl, hway, hitem⟩ | ⟨-, rfl, hblock⟩)
        · exact ⟨index, hway, hitem⟩
        · cases hblock
    | node tag fields =>
      simp only [hbody, Option.some.injEq, reduceCtorEq, false_and, exists_false, false_or]
      by_cases hblock : (Value.node tag fields).kind = .blockStatement
      · rw [if_pos hblock]
        constructor
        · rintro ⟨part, hway, rfl⟩
          cases List.mem_singleton.1 hway
          exact ⟨rfl, hbody.symm, hbody ▸ hblock⟩
        · rintro ⟨rfl, rfl, -⟩
          exact ⟨body, List.mem_singleton_self _, hbody⟩
      · rw [if_neg hblock]
        constructor
        · rintro ⟨_, hway, -⟩
          cases hway
        · rintro ⟨-, rfl, hkind⟩
          exact absurd hkind hblock
    | _ =>
      simp only [hbody, Option.some.injEq, reduceCtorEq, false_and, exists_false, false_or,
        List.not_mem_nil, false_iff, not_and]
      rintro - rfl hkind
      cases hkind

/-- From a value that is no wrapper the search goes on along its ways. -/
theorem leadsTo_iff (hno : node.isWrapper = .ok false) :
    LeadsTo node way child ↔ ∃ part, (way, part) ∈ node.searchWays ∧ part.value = child := by
  constructor
  · rintro (⟨hkind, -, hlookup⟩ | ⟨hkind, hlookup⟩ | ⟨hkind, hlookup⟩ | ⟨hbodied, hbody, hitem⟩ |
      ⟨hbodied, hbody, hblock⟩)
    · rw [searchWays_call hkind, mem_wayInto_iff]
      exact ⟨rfl, hlookup⟩
    · rw [searchWays_unary hkind, mem_wayInto_iff]
      exact ⟨rfl, hlookup⟩
    · rw [searchWays_statement hkind, mem_wayInto_iff]
      exact ⟨rfl, hlookup⟩
    · rw [searchWays_other hbodied.ne_call hbodied.ne_unary hbodied.ne_statement,
        if_pos hbodied.isNode, mem_waysIntoBody_iff]
      exact .inl ⟨_, _, hbody, rfl, hitem⟩
    · rw [searchWays_other hbodied.ne_call hbodied.ne_unary hbodied.ne_statement,
        if_pos hbodied.isNode, mem_waysIntoBody_iff]
      exact .inr ⟨rfl, hbody, hblock⟩
  · intro hway
    by_cases hcall : node.kind = .callExpression
    · rw [searchWays_call hcall, mem_wayInto_iff] at hway
      exact hway.1 ▸ .callee hcall hno hway.2
    by_cases hunary : node.kind = .unaryExpression
    · rw [searchWays_unary hunary, mem_wayInto_iff] at hway
      exact hway.1 ▸ .argument hunary hway.2
    by_cases hstatement : node.kind = .expressionStatement
    · rw [searchWays_statement hstatement, mem_wayInto_iff] at hway
      exact hway.1 ▸ .expression hstatement hway.2
    rw [searchWays_other hcall hunary hstatement] at hway
    by_cases hnode : node.isNode = true
    · have hbodied : node.IsBodied := ⟨hnode, hcall, hunary, hstatement⟩
      rw [if_pos hnode, mem_waysIntoBody_iff] at hway
      obtain ⟨items, index, hbody, rfl, hitem⟩ | ⟨rfl, hbody, hblock⟩ := hway
      · exact .statement hbodied hbody hitem
      · exact .block hbodied hbody hblock
    · rw [if_neg hnode] at hway
      obtain ⟨_, hmem, -⟩ := hway
      cases hmem

theorem at?_of_leadsTo (hleads : LeadsTo node way child) : node.at? way = some child := by
  obtain ⟨part, hway, rfl⟩ := (leadsTo_iff (isWrapper_of_leadsTo hleads)).1 hleads
  exact at?_searchWays hway

theorem at?_of_reaches (hreaches : Reaches root position found) :
    root.at? position = some found := by
  induction hreaches with
  | here node => rfl
  | step hleads _ ih => rw [at?_append, at?_of_leadsTo hleads, Option.bind_some, ih]

/-- Whatever lies behind the first way comes before what lies behind the second one. -/
def Precedes (first second : Position × Part node) : Prop :=
  ∀ front back, Before (first.1 ++ front) (second.1 ++ back)

theorem itemWays_ordered (parts : List (Part node)) : (itemWays parts).Pairwise Precedes := by
  have hless : parts.zipIdx.Pairwise fun first second => first.2 < second.2 := by
    rw [← List.pairwise_map, List.zipIdx_map_snd]
    exact List.pairwise_lt_range'
  rw [itemWays, List.pairwise_map]
  exact hless.imp fun hindex front back => .inside _ (.item front back hindex)

/-- The ways of the search stand in the order of their positions. -/
theorem searchWays_ordered (node : Value) : node.searchWays.Pairwise Precedes := by
  have hinto : ∀ key, (node.wayInto key).Pairwise Precedes := by
    intro key
    rw [wayInto]
    cases node.part? key with
    | none => exact .nil
    | some part => exact List.pairwise_singleton _ _
  rw [searchWays]
  split
  · exact hinto _
  · exact hinto _
  · exact hinto _
  · split
    · rw [waysIntoBody]
      split
      · exact .nil
      · split
        · exact itemWays_ordered _
        · split
          · exact List.pairwise_singleton _ _
          · exact .nil
        · exact .nil
    · exact .nil

/-- Of two different ways one comes first, with all that lies behind it. -/
theorem leadsTo_ordered {another : Position} {sibling : Value} (hleads : LeadsTo node way child)
    (hother : LeadsTo node another sibling) :
    way = another ∨ (∀ front back, Before (way ++ front) (another ++ back)) ∨
      ∀ front back, Before (another ++ front) (way ++ back) := by
  have hno := isWrapper_of_leadsTo hleads
  obtain ⟨_, hway, -⟩ := (leadsTo_iff hno).1 hleads
  obtain ⟨_, hanother, -⟩ := (leadsTo_iff hno).1 hother
  by_cases heq : way = another
  · exact .inl heq
  · have : Std.Symm fun first second : Position × Part node =>
        Precedes first second ∨ Precedes second first := ⟨fun _ _ => Or.symm⟩
    have hordered : node.searchWays.Pairwise fun first second =>
        Precedes first second ∨ Precedes second first := (searchWays_ordered node).imp Or.inl
    exact .inr (hordered.forall hway hanother fun hsame => heq (congrArg Prod.fst hsame))

theorem isFirstWrapper_here (hwrapper : wrapper.isWrapper = .ok true) :
    wrapper.IsFirstWrapper [] wrapper := by
  refine ⟨.here wrapper, hwrapper, ?_⟩
  rintro other found (_ | ⟨hleads, -⟩) -
  · exact .inl rfl
  · cases (isWrapper_of_leadsTo hleads).symm.trans hwrapper

/-- The first wrapper of a part is the first one of the whole if the parts before it have
none. -/
theorem IsFirstWrapper.step (hleads : LeadsTo node way child)
    (hearlier : ∀ earlier other, LeadsTo node earlier other → Before earlier way →
      other.IsWrapperFree)
    (hfirst : child.IsFirstWrapper position wrapper) :
    node.IsFirstWrapper (way ++ position) wrapper := by
  refine ⟨.step hleads hfirst.reaches, hfirst.isWrapper, ?_⟩
  rintro other found (_ | @⟨_, sibling, _, another, rest, hanother, hreaches⟩) hfound
  · cases (isWrapper_of_leadsTo hleads).symm.trans hfound
  · obtain rfl | hbefore | hafter := leadsTo_ordered hleads hanother
    · cases (at?_of_leadsTo hleads).symm.trans (at?_of_leadsTo hanother)
      obtain rfl | hlater := hfirst.first rest found hreaches hfound
      · exact .inl rfl
      · exact .inr (hlater.append_left way)
    · exact .inr (hbefore position rest)
    · have hsooner : Before another way := by simpa using hafter [] []
      exact absurd hfound (hearlier another sibling hanother hsooner rest found hreaches)

/-- There is one first wrapper. -/
theorem IsFirstWrapper.unique {another : Value} (hfirst : root.IsFirstWrapper position wrapper)
    (hother : root.IsFirstWrapper other another) : position = other ∧ wrapper = another := by
  have hposition : position = other := by
    obtain heq | hbefore := hfirst.first other another hother.reaches hother.isWrapper
    · exact heq.symm
    obtain heq | hafter := hother.first position wrapper hfirst.reaches hfirst.isWrapper
    · exact heq
    · exact absurd hafter hbefore.asymm
  subst hposition
  refine ⟨rfl, ?_⟩
  cases (at?_of_reaches hfirst.reaches).symm.trans (at?_of_reaches hother.reaches)
  rfl

theorem Layered.exists_isFirstWrapper (hlayered : Layered wrapper root) :
    ∃ position, root.IsFirstWrapper position wrapper := by
  induction hlayered with
  | wrapper hwrapper => exact ⟨[], isFirstWrapper_here hwrapper⟩
  | @around node child key hleads _ ih =>
    obtain ⟨position, hfirst⟩ := ih
    refine ⟨_, hfirst.step hleads fun earlier other hearlier hbefore => ?_⟩
    -- A way begins with a field, and nothing is before that.
    cases hearlier <;> cases hbefore with
    | inside _ hinside => cases hinside
  | @among node child front back hbodied hbody hfront _ ih =>
    obtain ⟨position, hfirst⟩ := ih
    have hleads : LeadsTo node [.field "body", .item front.length] child :=
      .statement hbodied hbody (by simp)
    refine ⟨_, hfirst.step hleads fun earlier other hearlier hbefore => ?_⟩
    cases hearlier with
    | callee hkind _ _ => exact absurd hkind hbodied.ne_call
    | argument hkind _ => exact absurd hkind hbodied.ne_unary
    | expression hkind _ => exact absurd hkind hbodied.ne_statement
    | statement _ hitems hitem =>
      cases hbody.symm.trans hitems
      obtain hless : _ < front.length := by
        cases hbefore with
        | inside _ hinside =>
          cases hinside with
          | item _ _ hless => exact hless
          | inside _ hnil => cases hnil
      rw [List.getElem?_append_left hless] at hitem
      exact hfront other (List.mem_of_getElem? hitem)
    | block _ hblock hkind =>
      cases hbody.symm.trans hblock
      cases hkind

/-- What the search makes of the first wrapper, if there is one. -/
def Located (root : Value) : Prop :=
  (∃ position wrapper, root.IsFirstWrapper position wrapper ∧
    root.locateWrapper? = wrapper.moduleCount.map fun _ => some (position, wrapper)) ∨
  (root.IsWrapperFree ∧ root.locateWrapper? = .ok none)

/-- The search in one part, with the way to what it finds. -/
def locateAlong (way : Position × Part node) : Except Fault (Option (Position × Value)) :=
  way.2.value.locateWrapper?.map (Option.map fun found => (way.1 ++ found.1, found.2))

theorem locateWrapper?_of_isWrapper (hwrapper : root.isWrapper = .ok true) :
    root.locateWrapper? = root.moduleCount.map fun _ => some ([], root) := by
  rw [locateWrapper?, endsSearch, hwrapper]
  cases root.moduleCount <;> rfl

theorem locateWrapper?_of_not_isWrapper (hno : root.isWrapper = .ok false) :
    root.locateWrapper? = findFirst? locateAlong root.searchWays := by
  rw [locateWrapper?, endsSearch, hno]
  refine congrArg (findFirst? · root.searchWays) (funext fun way => ?_)
  rw [locateAlong]
  cases way.2.value.locateWrapper? <;> rfl

/-- A list of parts is searched up to the first one that has a wrapper. -/
theorem findFirst?_locateAlong {ways : List (Position × Part node)}
    (hlocated : ∀ way ∈ ways, way.2.value.Located) :
    (∃ front way back position wrapper, ways = front ++ way :: back ∧
      (∀ earlier ∈ front, earlier.2.value.IsWrapperFree) ∧
      way.2.value.IsFirstWrapper position wrapper ∧
      findFirst? locateAlong ways =
        wrapper.moduleCount.map fun _ => some (way.1 ++ position, wrapper)) ∨
    ((∀ way ∈ ways, way.2.value.IsWrapperFree) ∧ findFirst? locateAlong ways = .ok none) := by
  induction ways with
  | nil => exact .inr ⟨List.forall_mem_nil _, rfl⟩
  | cons way ways ih =>
    rw [findFirst?_cons, locateAlong]
    obtain ⟨position, wrapper, hfirst, hlocate⟩ | ⟨hfree, hlocate⟩ :=
      hlocated way List.mem_cons_self
    · refine .inl ⟨[], way, ways, position, wrapper, rfl, List.forall_mem_nil _, hfirst, ?_⟩
      rw [hlocate]
      cases wrapper.moduleCount <;> rfl
    · rw [hlocate]
      obtain ⟨front, first, back, position, wrapper, rfl, hfront, hfirst, hfind⟩ |
        ⟨hnone, hfind⟩ := ih fun other hmem => hlocated other (List.mem_cons_of_mem way hmem)
      · refine .inl ⟨way :: front, first, back, position, wrapper, rfl, ?_, hfirst, hfind⟩
        exact List.forall_mem_cons.2 ⟨hfree, hfront⟩
      · exact .inr ⟨List.forall_mem_cons.2 ⟨hfree, hnone⟩, hfind⟩

theorem isDecided_of_searchWays (hdecided : node.IsDecided) {entry : Position × Part node}
    (hway : entry ∈ node.searchWays) : entry.2.value.IsDecided := by
  intro position found hat
  refine hdecided (entry.1 ++ position) found ?_
  rw [at?_append, at?_searchWays hway, Option.bind_some, hat]

/-- The search ends with the first wrapper, or with none if there is none. -/
theorem located_of_isDecided (root : Value) (hdecided : root.IsDecided) : root.Located := by
  obtain ⟨answer, hanswer⟩ := hdecided [] root rfl
  cases answer with
  | true => exact .inl ⟨[], root, isFirstWrapper_here hanswer, locateWrapper?_of_isWrapper hanswer⟩
  | false =>
    have hparts : ∀ way ∈ root.searchWays, way.2.value.Located := by
      intro way hway
      have hsmaller := way.2.smaller
      exact located_of_isDecided way.2.value (isDecided_of_searchWays hdecided hway)
    rw [Located, locateWrapper?_of_not_isWrapper hanswer]
    obtain ⟨front, way, back, position, wrapper, hways, hfront, hfirst, hfind⟩ | ⟨hfree, hfind⟩ :=
      findFirst?_locateAlong hparts
    · refine .inl ⟨way.1 ++ position, wrapper, hfirst.step ?_ ?_, hfind⟩
      · refine (leadsTo_iff hanswer).2 ⟨way.2, ?_, rfl⟩
        rw [hways]
        exact List.mem_append_right front List.mem_cons_self
      · intro earlier other hleads hbefore
        obtain ⟨part, hmem, rfl⟩ := (leadsTo_iff hanswer).1 hleads
        have hordered := searchWays_ordered root
        rw [hways] at hmem hordered
        obtain hmem | hmem := List.mem_append.1 hmem
        · exact hfront _ hmem
        -- What is not in front is the way itself or comes after it.
        obtain rfl | hmem := List.mem_cons.1 hmem
        · exact absurd hbefore hbefore.asymm
        · have hrest := (List.pairwise_append.1 hordered).2.1
          have hlater := (List.pairwise_cons.1 hrest).1 _ hmem [] []
          rw [List.append_nil, List.append_nil] at hlater
          exact absurd hlater hbefore.asymm
    · refine .inr ⟨?_, hfind⟩
      rintro position found (_ | ⟨hleads, hreaches⟩)
      · rw [hanswer]
        decide
      · obtain ⟨part, hmem, rfl⟩ := (leadsTo_iff hanswer).1 hleads
        exact hfree _ hmem _ _ hreaches
termination_by root.size

theorem locateWrapper?_of_isFirstWrapper (hdecided : root.IsDecided)
    (hfirst : root.IsFirstWrapper position wrapper) :
    root.locateWrapper? = wrapper.moduleCount.map fun _ => some (position, wrapper) := by
  obtain ⟨_, _, hother, hlocate⟩ | ⟨hfree, -⟩ := located_of_isDecided root hdecided
  · obtain ⟨rfl, rfl⟩ := hother.unique hfirst
    exact hlocate
  · exact absurd hfirst.isWrapper (hfree position wrapper hfirst.reaches)

theorem findWrapper?_of_isFirstWrapper (hdecided : root.IsDecided)
    (hfirst : root.IsFirstWrapper position wrapper) :
    root.findWrapper? = wrapper.moduleCount.map fun _ => some wrapper := by
  rw [findWrapper?_eq_locateWrapper?, locateWrapper?_of_isFirstWrapper hdecided hfirst]
  cases wrapper.moduleCount <;> rfl

theorem findWrapper?_of_isWrapperFree (hdecided : root.IsDecided) (hfree : root.IsWrapperFree) :
    root.findWrapper? = .ok none := by
  obtain ⟨position, wrapper, hfirst, -⟩ | ⟨-, hlocate⟩ := located_of_isDecided root hdecided
  · exact absurd hfirst.isWrapper (hfree position wrapper hfirst.reaches)
  · rw [findWrapper?_eq_locateWrapper?, hlocate]
    rfl

theorem isWrapperFree_of_findWrapper? (hdecided : root.IsDecided)
    (hnone : root.findWrapper? = .ok none) : root.IsWrapperFree := by
  obtain ⟨position, wrapper, hfirst, -⟩ | ⟨hfree, -⟩ := located_of_isDecided root hdecided
  · rw [findWrapper?_of_isFirstWrapper hdecided hfirst] at hnone
    obtain ⟨_, -, hsome⟩ := Attempt.map_eq_ok_iff.1 hnone
    cases hsome
  · exact hfree

/-- The modules of a wrapper are counted in the one array that it is called with. -/
theorem exists_moduleCount_eq (hwrapper : wrapper.isWrapper = .ok true) :
    ∃ arguments array, wrapper.lookup "arguments" = some arguments ∧
      arguments.item 0 = .ok array ∧ wrapper.moduleCount = array.lengthAt "elements" := by
  obtain ⟨hkind, htakes⟩ := takesOnly_of_isWrapper hwrapper
  obtain ⟨arguments, array, hlookup, hitem, harray⟩ := exists_item_of_takesOnly htakes
  exact ⟨arguments, array, hlookup, hitem, moduleCount_eq_lengthAt hkind hlookup hitem harray⟩

/-- Whether every value inside can be told to be a wrapper or not. -/
def isDecided : Value → Bool
  | .array items => itemsAreDecided items
  | .node tag fields =>
    (Value.node tag fields).isWrapper.toOption.isSome && fieldsAreDecided fields
  | _ => true
where
  itemsAreDecided : List Value → Bool
    | [] => true
    | item :: rest => item.isDecided && itemsAreDecided rest
  fieldsAreDecided : List (String × Value) → Bool
    | [] => true
    | (_, value) :: rest => value.isDecided && fieldsAreDecided rest

theorem isDecided_of_mem_items {items : List Value} {item : Value}
    (hdecided : isDecided.itemsAreDecided items = true) (hmem : item ∈ items) :
    item.isDecided = true := by
  induction hmem with
  | head rest => exact (Bool.and_eq_true_iff.1 hdecided).1
  | tail first _ ih => exact ih (Bool.and_eq_true_iff.1 hdecided).2

theorem isDecided_of_mem_fields {fields : Fields} {entry : String × Value}
    (hdecided : isDecided.fieldsAreDecided fields = true) (hmem : entry ∈ fields) :
    entry.2.isDecided = true := by
  induction hmem with
  | head rest => exact (Bool.and_eq_true_iff.1 hdecided).1
  | tail first _ ih => exact ih (Bool.and_eq_true_iff.1 hdecided).2

theorem isDecided_of_child? {step : Step} (hdecided : node.isDecided = true)
    (hchild : node.child? step = some child) : child.isDecided = true := by
  cases node with
  | array items =>
    cases step with
    | item index => exact isDecided_of_mem_items hdecided (List.mem_of_getElem? hchild)
    | field key => cases hchild
  | node tag fields =>
    cases step with
    | item index => cases hchild
    | field key =>
      exact isDecided_of_mem_fields (Bool.and_eq_true_iff.1 hdecided).2 (Fields.mem_of_get? hchild)
  | _ => cases hchild

theorem isDecided_sound (hdecided : root.isDecided = true) : root.IsDecided := by
  intro position found hat
  induction position generalizing root with
  | nil =>
    cases hat
    cases found with
    | node tag fields => exact Attempt.of_toOption_isSome (Bool.and_eq_true_iff.1 hdecided).1
    | _ => exact ⟨false, rfl⟩
  | cons step rest ih =>
    obtain ⟨child, hchild, hrest⟩ := Option.bind_eq_some_iff.1 hat
    exact ih (isDecided_of_child? hdecided hchild) hrest

/-- In a tree where everything can be told to be a wrapper or not, the search finds nothing
exactly if no wrapper can be reached, and otherwise it ends at the first one that can be
reached, at its position in the tree.  It gives that wrapper back exactly if the elements of
its array can be counted, and fails as the counting does otherwise.  The first wrapper inside
any number of layers is the one that they are put around. -/
theorem search_finds_first_wrapper (hdecided : root.IsDecided) :
    (root.findWrapper? = .ok none ↔ root.IsWrapperFree) ∧
    (root.IsWrapperFree ∨ ∃ position wrapper, root.IsFirstWrapper position wrapper) ∧
    (∀ wrapper, root.findWrapper? = .ok (some wrapper) ↔
      ∃ position count, root.IsFirstWrapper position wrapper ∧ wrapper.moduleCount = .ok count) ∧
    (∀ position wrapper, root.IsFirstWrapper position wrapper →
      root.at? position = some wrapper ∧
      root.locateWrapper? = wrapper.moduleCount.map (fun _ => some (position, wrapper)) ∧
      root.findWrapper? = wrapper.moduleCount.map (fun _ => some wrapper) ∧
      ∃ arguments array, wrapper.lookup "arguments" = some arguments ∧
        arguments.item 0 = .ok array ∧ wrapper.moduleCount = array.lengthAt "elements") ∧
    ∀ wrapper, Layered wrapper root →
      root.findWrapper? = wrapper.moduleCount.map fun _ => some wrapper := by
  have hcases : root.IsWrapperFree ∨ ∃ position wrapper, root.IsFirstWrapper position wrapper := by
    obtain ⟨position, wrapper, hfirst, -⟩ | ⟨hfree, -⟩ := located_of_isDecided root hdecided
    · exact .inr ⟨position, wrapper, hfirst⟩
    · exact .inl hfree
  refine ⟨⟨isWrapperFree_of_findWrapper? hdecided, findWrapper?_of_isWrapperFree hdecided⟩, hcases,
    fun wrapper => ⟨fun hfound => ?_, ?_⟩, fun position wrapper hfirst => ?_,
    fun wrapper hlayered => ?_⟩
  · obtain hfree | ⟨position, first, hfirst⟩ := hcases
    · cases (findWrapper?_of_isWrapperFree hdecided hfree).symm.trans hfound
    · rw [findWrapper?_of_isFirstWrapper hdecided hfirst] at hfound
      obtain ⟨count, hcount, hsome⟩ := Attempt.map_eq_ok_iff.1 hfound
      cases hsome
      exact ⟨position, count, hfirst, hcount⟩
  · rintro ⟨position, count, hfirst, hcount⟩
    rw [findWrapper?_of_isFirstWrapper hdecided hfirst, hcount]
    rfl
  · exact ⟨at?_of_reaches hfirst.reaches, locateWrapper?_of_isFirstWrapper hdecided hfirst,
      findWrapper?_of_isFirstWrapper hdecided hfirst, exists_moduleCount_eq hfirst.isWrapper⟩
  · obtain ⟨position, hfirst⟩ := hlayered.exists_isFirstWrapper
    exact findWrapper?_of_isFirstWrapper hdecided hfirst

/-- The script `; !function (m) {}([]);`. -/
def negatedBundle : Value :=
  .node "Program" [("body", .array [.node "EmptyStatement" [],
    Build.perform (Build.unary "!" (Build.bundle []))])]

theorem layered_negatedBundle : Layered (Build.bundle []) negatedBundle := by
  have hempty : (Value.node "EmptyStatement" []).IsWrapperFree := by
    refine isWrapperFree_of_findWrapper? (isDecided_sound (by decide)) ?_
    rw [findWrapper?_eq]
    rfl
  have hsigned : Layered (Build.bundle []) (Build.perform (Build.unary "!" (Build.bundle []))) :=
    .around (.expression (by decide) rfl)
      (.around (.argument (by decide) rfl) (.wrapper (by decide)))
  have hbody : negatedBundle.lookup "body" = some (.array ([.node "EmptyStatement" []] ++
      Build.perform (Build.unary "!" (Build.bundle [])) :: [])) := rfl
  refine .among (by constructor <;> decide) hbody ?_ hsigned
  exact fun statement hmem => List.mem_singleton.1 hmem ▸ hempty

/-- The wrapper behind a statement without one, under a sign. -/
theorem search_finds_first_wrapper_negated :
    negatedBundle.IsDecided ∧ Layered (Build.bundle []) negatedBundle ∧
      negatedBundle.findWrapper? = .ok (some (Build.bundle [])) := by
  have hdecided : negatedBundle.IsDecided := isDecided_sound (by decide)
  refine ⟨hdecided, layered_negatedBundle, ?_⟩
  exact (search_finds_first_wrapper hdecided).2.2.2.2 _ layered_negatedBundle

/-- A wrapper whose array holds a number in place of its elements. -/
def uncountedBundle : Value :=
  Build.call (Build.function [Build.name "m"] [])
    [.node "ArrayExpression" [("elements", .int 5)]]

/-- The search may fail at a wrapper that it has reached, though it looks at no element. -/
theorem search_fails_at_uncounted :
    uncountedBundle.IsDecided ∧ uncountedBundle.IsFirstWrapper [] uncountedBundle ∧
      uncountedBundle.findWrapper? = .error (.noLength .int) := by
  have hdecided : uncountedBundle.IsDecided := isDecided_sound (by decide)
  have hfirst : uncountedBundle.IsFirstWrapper [] uncountedBundle := isFirstWrapper_here (by decide)
  refine ⟨hdecided, hfirst, ?_⟩
  rw [findWrapper?_of_isFirstWrapper hdecided hfirst]
  rfl

end Value

end Debundle
