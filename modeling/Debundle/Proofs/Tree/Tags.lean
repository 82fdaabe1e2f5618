import Debundle.Proofs.Tree.Position
import Debundle.Proofs.Tree.Related
import Debundle.Tree.Estree
import Mathlib.Data.List.Nodup

/-!
# Tags taken out and put back

Parser output becomes a tree when the entry `type` is taken out of its mappings.  The result is a
normal form: a second conversion changes nothing, and outside of the nodes that were there before
no record has an entry `type`.  Where every `type` is a text, nothing is lost but the places of
these entries, so the tags of the nodes can be put back.
-/

namespace Debundle

namespace Fields

/-- Changes the values of all fields. -/
def mapValues (change : Value → Value) (fields : Fields) : Fields :=
  fields.map fun entry => (entry.1, change entry.2)

/-- The entry `type` comes first, and then the others in their order. -/
def typeAhead (fields : Fields) : Fields :=
  match fields.get? "type" with
  | some value => ("type", value) :: fields.erase "type"
  | none => fields

section

variable (change : Value → Value) (fields : Fields)

theorem keys_mapValues : keys (mapValues change fields) = keys fields :=
  List.map_map

theorem mapValues_append (others : Fields) :
    mapValues change (fields ++ others) = mapValues change fields ++ mapValues change others :=
  List.map_append

theorem mapValues_mapValues (again : Value → Value) :
    mapValues again (mapValues change fields) = mapValues (again ∘ change) fields :=
  List.map_map

theorem get?_mapValues (key : String) :
    Fields.get? (mapValues change fields) key = (Fields.get? fields key).map change := by
  induction fields with
  | nil => rfl
  | cons entry rest ih =>
    obtain ⟨name, value⟩ := entry
    simp only [Fields.get?, mapValues, List.map_cons, List.lookup_cons] at ih ⊢
    cases key == name with
    | false => exact ih
    | true => rfl

theorem erase_mapValues (key : String) :
    Fields.erase (mapValues change fields) key = mapValues change (Fields.erase fields key) :=
  List.filter_map

end

variable {fields before after : Fields} {key : String}

theorem mapValues_congr {change change' : Value → Value}
    (hsame : ∀ held ∈ fields.map Prod.snd, change held = change' held) :
    mapValues change fields = mapValues change' fields :=
  List.map_congr_left fun entry hentry =>
    congrArg (Prod.mk entry.1) (hsame entry.2 (List.mem_map_of_mem hentry))

theorem get?_of_absent (habsent : key ∉ keys fields) : Fields.get? fields key = none := by
  rw [← Option.not_isSome_iff_eq_none, get?_isSome_iff]
  exact habsent

theorem erase_of_absent (habsent : key ∉ keys fields) : Fields.erase fields key = fields := by
  refine List.filter_eq_self.2 fun entry hentry => decide_eq_true ?_
  rintro rfl
  exact habsent (List.mem_map_of_mem hentry)

theorem absent_erase (key : String) (fields : Fields) : key ∉ keys (Fields.erase fields key) := by
  intro hkey
  obtain ⟨entry, hentry, hname⟩ := List.mem_map.1 hkey
  exact of_decide_eq_true (List.mem_filter.1 hentry).2 hname

theorem get?_erase (fields : Fields) (key other : String) :
    Fields.get? (Fields.erase fields key) other =
      if other = key then none else Fields.get? fields other := by
  have hfilter : Fields.erase fields key = fields.filter fun entry => entry.1 != key :=
    List.filter_congr fun entry _ => decide_not.trans rfl
  have hlookup := Entries.lookup_filter_ne fields key other
  rw [← hfilter] at hlookup
  simp only [beq_iff_eq] at hlookup
  exact hlookup

/-- The value under a name that is used once, with the fields before and after it. -/
theorem exists_between {value : Value} (hnodup : (keys fields).Nodup)
    (hget : Fields.get? fields key = some value) :
    ∃ before after, fields = before ++ (key, value) :: after ∧ key ∉ keys (before ++ after) := by
  obtain ⟨before, after, rfl, -⟩ := List.lookup_eq_some_iff.1 hget
  refine ⟨before, after, rfl, ?_⟩
  rw [keys, List.map_append, List.map_cons, List.nodup_middle, ← List.map_append] at hnodup
  exact (List.nodup_cons.1 hnodup).1

section

variable (value : Value) (habsent : key ∉ keys (before ++ after))

include habsent

theorem get?_between : Fields.get? (before ++ (key, value) :: after) key = some value := by
  rw [keys, List.map_append, List.mem_append, not_or] at habsent
  rw [Fields.get?, List.lookup_append, ← Fields.get?, get?_of_absent habsent.1, Option.none_or,
    List.lookup_cons_self]

theorem erase_between : Fields.erase (before ++ (key, value) :: after) key = before ++ after := by
  have hothers := erase_of_absent habsent
  rw [Fields.erase, List.filter_append, List.filter_cons_of_neg (by simp), ← List.filter_append]
  exact hothers

end

theorem typeAhead_of_absent (habsent : "type" ∉ keys fields) : typeAhead fields = fields := by
  rw [typeAhead, get?_of_absent habsent]

theorem typeAhead_between (value : Value) (habsent : "type" ∉ keys (before ++ after)) :
    typeAhead (before ++ ("type", value) :: after) = ("type", value) :: (before ++ after) := by
  rw [typeAhead, get?_between value habsent, erase_between value habsent]

end Fields

namespace Value

theorem size_le_of_mem_fields {fields : Fields} {entry : String × Value} (hentry : entry ∈ fields) :
    entry.2.size ≤ size.fieldsSize fields := by
  induction fields with
  | nil => cases hentry
  | cons first rest ih =>
    rw [size.fieldsSize]
    rcases List.mem_cons.1 hentry with rfl | hrest
    · exact Nat.le_add_right _ _
    · exact Nat.le_trans (ih hrest) (Nat.le_add_left _ _)

/-- Induction over a value with everything inside it, also in mappings. -/
theorem induction_on_inside {motive : Value → Prop}
    (hleaf : ∀ value : Value, value.isBranch = false → value.fields? = none → motive value)
    (harray : ∀ items, (∀ item ∈ items, motive item) → motive (.array items))
    (hmapping : ∀ fields : Fields, (∀ held ∈ fields.map Prod.snd, motive held) →
      motive (.mapping fields))
    (hnode : ∀ tag (fields : Fields), (∀ held ∈ fields.map Prod.snd, motive held) →
      motive (.node tag fields))
    (value : Value) : motive value := by
  induction hsize : value.size using Nat.strongRecOn generalizing value with
  | ind size ih =>
    subst hsize
    have hinside : ∀ fields : Fields, size.fieldsSize fields < value.size →
        ∀ held ∈ fields.map Prod.snd, motive held := by
      intro fields hless held hheld
      obtain ⟨entry, hentry, rfl⟩ := List.mem_map.1 hheld
      exact ih entry.2.size (Nat.lt_of_le_of_lt (size_le_of_mem_fields hentry) hless) entry.2 rfl
    cases value with
    | array items =>
      exact harray items fun item hitem => ih item.size (size_lt_of_mem_array hitem) item rfl
    | mapping fields => exact hmapping fields (hinside fields (by rw [size]; omega))
    | node tag fields => exact hnode tag fields (hinside fields (by rw [size]; omega))
    | _ => exact hleaf _ rfl rfl

/-- The value one step inside a value.  Other than a child, it may lie in a mapping. -/
def inside? : Value → Step → Option Value
  | .array items, .item index => items[index]?
  | _, .item _ => none
  | value, .field key => value.lookup key

/-- The value at a position that may lead through mappings. -/
def reach? : Value → Position → Option Value
  | value, [] => some value
  | value, step :: rest => (value.inside? step).bind fun part => part.reach? rest

/-- Whether there is a node on the way to a position or at its end. -/
def meetsNode : Value → Position → Bool
  | value, [] => value.isNode
  | value, step :: rest => value.isNode || (value.inside? step).any fun part => part.meetsNode rest

theorem inside?_field (value : Value) (key : String) :
    value.inside? (.field key) = value.lookup key := by
  cases value <;> rfl

theorem inside?_item_of_fields? {value : Value} {fields : Fields}
    (hfields : value.fields? = some fields) (index : Nat) : value.inside? (.item index) = none := by
  cases value with
  | array items => cases hfields
  | _ => rfl

section Conversion

variable {value : Value} {fields entries : Fields}

theorem fields?_ofEntries (entries : Fields) :
    (ofEntries entries).fields? = some (entries.erase "type") := by
  rw [ofEntries]
  split <;> rfl

/-- Entries describe a node, or a mapping that has lost its `type`. -/
theorem ofEntries_cases (entries : Fields) :
    (ofEntries entries).isNode = true ∨ ofEntries entries = .mapping (entries.erase "type") := by
  rw [ofEntries]
  split
  · exact .inl rfl
  · exact .inr rfl

theorem ofEntries_of_absent (habsent : "type" ∉ Fields.keys entries) :
    ofEntries entries = .mapping entries := by
  rw [ofEntries, Fields.get?_of_absent habsent, Fields.erase_of_absent habsent]

theorem ofEstree_of_isNode (hnode : value.isNode = true) : value.ofEstree = value := by
  cases value with
  | node tag fields => rfl
  | _ => cases hnode

theorem ofEstree_array (items : List Value) :
    (Value.array items).ofEstree = .array (items.map ofEstree) := by
  have hitems : ofEstree.ofItems items = items.map ofEstree := by
    induction items with
    | nil => rfl
    | cons item rest ih => rw [ofEstree.ofItems, ih, List.map_cons]
  rw [ofEstree, hitems]

theorem ofEstree_mapping (fields : Fields) :
    (Value.mapping fields).ofEstree = ofEntries (fields.mapValues ofEstree) := by
  have hfields : ofEstree.ofFields fields = fields.mapValues ofEstree := by
    induction fields with
    | nil => rfl
    | cons entry rest ih =>
      obtain ⟨key, held⟩ := entry
      rw [ofEstree.ofFields, ih]
      rfl
  rw [ofEstree, hfields]

theorem ofEstree_of_absent (habsent : "type" ∉ Fields.keys fields) :
    (Value.mapping fields).ofEstree = .mapping (fields.mapValues ofEstree) := by
  rw [ofEstree_mapping, ofEntries_of_absent]
  rwa [Fields.keys_mapValues]

theorem ofEstree_between (tag : String) {before after : Fields}
    (habsent : "type" ∉ Fields.keys (before ++ after)) :
    (Value.mapping (before ++ ("type", .text tag) :: after)).ofEstree =
      .node tag (Fields.mapValues ofEstree (before ++ after)) := by
  rw [ofEstree_mapping, ofEntries, Fields.get?_mapValues, Fields.get?_between _ habsent,
    Fields.erase_mapValues, Fields.erase_between _ habsent]
  rfl

/-- A second conversion changes nothing. -/
theorem ofEstree_ofEstree (value : Value) : value.ofEstree.ofEstree = value.ofEstree := by
  induction value using induction_on_inside with
  | hleaf value hbranch hfields =>
    cases value with
    | array => cases hbranch
    | mapping => cases hfields
    | _ => rfl
  | harray items ih =>
    rw [ofEstree_array, ofEstree_array, List.map_map]
    exact congrArg Value.array (List.map_congr_left ih)
  | hmapping fields ih =>
    have hinside : (fields.mapValues ofEstree).mapValues ofEstree = fields.mapValues ofEstree := by
      rw [Fields.mapValues_mapValues]
      exact Fields.mapValues_congr ih
    rw [ofEstree_mapping]
    -- A new node is passed over by now, and a mapping has no `type` left to decide on.
    rcases ofEntries_cases (fields.mapValues ofEstree) with hnode | hmapping
    · exact ofEstree_of_isNode hnode
    · rw [hmapping, ofEstree_of_absent (Fields.absent_erase "type" _), ← Fields.erase_mapValues,
        hinside]
  | hnode tag fields => rfl

/-- One step inside what is no node, the conversion leaves what was there, converted.  Only the
entry `type` is gone. -/
theorem inside?_ofEstree (hnode : value.isNode = false) (step : Step) :
    value.ofEstree.inside? step =
      if step = .field "type" then none else (value.inside? step).map ofEstree := by
  cases value with
  | array items =>
    rw [ofEstree_array]
    cases step with
    | item index => simp [inside?]
    | field key => simp [inside?, lookup, fields?]
  | mapping fields =>
    have hfields := fields?_ofEntries (Fields.mapValues ofEstree fields)
    rw [ofEstree_mapping]
    cases step with
    | item index =>
      rw [inside?_item_of_fields? hfields]
      simp [inside?]
    | field key =>
      rw [inside?_field, lookup, hfields, Option.bind_some, Fields.get?_erase,
        Fields.get?_mapValues, inside?_field]
      simp [lookup, fields?]
  | node tag fields => cases hnode
  | _ => cases step <;> simp [ofEstree, inside?, lookup, fields?]

theorem lookup_type_ofEstree (hnode : value.isNode = false) :
    value.ofEstree.lookup "type" = none := by
  rw [← inside?_field, inside?_ofEstree hnode, if_pos rfl]

/-- At a position of the result stands what stood there before, if it belongs to a node.  If not,
it was converted, and has no entry `type`. -/
theorem reach?_ofEstree {position : Position} {part : Value}
    (hpart : value.ofEstree.reach? position = some part) :
    (value.meetsNode position = true ∧ value.reach? position = some part) ∨
      (value.meetsNode position = false ∧ (value.reach? position).map ofEstree = some part ∧
        part.lookup "type" = none) := by
  induction position generalizing value with
  | nil =>
    cases hnode : value.isNode with
    | true =>
      rw [ofEstree_of_isNode hnode] at hpart
      exact .inl ⟨hnode, hpart⟩
    | false =>
      cases hpart
      exact .inr ⟨hnode, rfl, lookup_type_ofEstree hnode⟩
  | cons step rest ih =>
    -- The first node on the way settles the rest of it.
    cases hnode : value.isNode with
    | true =>
      rw [ofEstree_of_isNode hnode] at hpart
      exact .inl ⟨by rw [meetsNode, hnode, Bool.true_or], hpart⟩
    | false =>
      obtain ⟨inner, hinner, hrest⟩ := Option.bind_eq_some_iff.1 hpart
      rw [inside?_ofEstree hnode] at hinner
      obtain ⟨-, hinner⟩ := Option.ite_none_left_eq_some.1 hinner
      obtain ⟨held, hheld, rfl⟩ := Option.map_eq_some_iff.1 hinner
      rw [meetsNode, hnode, Bool.false_or, reach?, hheld]
      exact ih hrest

end Conversion

/-- Whether a value is made of mappings, arrays and leaves, and every `type` in it is a text.  As
in all mappings, no name is used twice. -/
def isPlain : Value → Bool
  | .array items => itemsArePlain items
  | .mapping fields =>
    decide (Fields.keys fields).Nodup && (Fields.get? fields "type").all isTag &&
      fieldsArePlain fields
  | .node .. => false
  | _ => true
where
  isTag : Value → Bool
    | .text _ => true
    | _ => false
  itemsArePlain : List Value → Bool
    | [] => true
    | item :: rest => item.isPlain && itemsArePlain rest
  fieldsArePlain : List (String × Value) → Bool
    | [] => true
    | (_, value) :: rest => value.isPlain && fieldsArePlain rest

/-- Builds a value anew from the inside out, with a choice of what its records become. -/
def rebuild (atMapping : Fields → Value) (atNode : String → Fields → Value) : Value → Value
  | .array items => .array (rebuildItems items)
  | .mapping fields => atMapping (rebuildFields fields)
  | .node tag fields => atNode tag (rebuildFields fields)
  | value => value
where
  rebuildItems : List Value → List Value
    | [] => []
    | item :: rest => item.rebuild atMapping atNode :: rebuildItems rest
  rebuildFields : List (String × Value) → List (String × Value)
    | [] => []
    | (key, value) :: rest => (key, value.rebuild atMapping atNode) :: rebuildFields rest

/-- Makes mappings of nodes again, with the tag as the entry `type` before all others. -/
def toEstree : Value → Value :=
  rebuild .mapping fun tag fields => .mapping (("type", .text tag) :: fields)

/-- Moves the entry `type` of each mapping to its front. -/
def typeFirst : Value → Value :=
  rebuild (fun fields => .mapping fields.typeAhead) .node

section Recovery

variable {value : Value} {fields : Fields}

theorem isPlain_array_iff {items : List Value} :
    (Value.array items).isPlain = true ↔ ∀ item ∈ items, item.isPlain = true := by
  have hitems : isPlain.itemsArePlain items = items.all isPlain := by
    induction items with
    | nil => rfl
    | cons item rest ih => rw [isPlain.itemsArePlain, ih, List.all_cons]
  rw [isPlain, hitems, List.all_eq_true]

theorem isPlain_of_mem_mapping (hplain : (Value.mapping fields).isPlain = true) :
    ∀ held ∈ fields.map Prod.snd, held.isPlain = true := by
  have hfields : isPlain.fieldsArePlain fields = (fields.map Prod.snd).all isPlain := by
    clear hplain
    induction fields with
    | nil => rfl
    | cons entry rest ih =>
      obtain ⟨key, held⟩ := entry
      rw [isPlain.fieldsArePlain, ih, List.map_cons, List.all_cons]
  rw [isPlain, Bool.and_eq_true, hfields] at hplain
  exact List.all_eq_true.1 hplain.2

/-- In a plain mapping there is no `type`, or there is one, which is a text. -/
theorem cases_of_isPlain (hplain : (Value.mapping fields).isPlain = true) :
    "type" ∉ Fields.keys fields ∨
      ∃ tag before after, fields = before ++ ("type", .text tag) :: after ∧
        "type" ∉ Fields.keys (before ++ after) := by
  simp only [isPlain, Bool.and_eq_true, decide_eq_true_eq] at hplain
  obtain ⟨⟨hnodup, htag⟩, -⟩ := hplain
  cases htype : Fields.get? fields "type" with
  | none =>
    rw [← Option.not_isSome_iff_eq_none, Fields.get?_isSome_iff] at htype
    exact .inl htype
  | some entry =>
    rw [htype] at htag
    cases entry with
    | text tag => exact .inr ⟨tag, Fields.exists_between hnodup htype⟩
    | _ => cases htag

section

variable (atMapping : Fields → Value) (atNode : String → Fields → Value)

theorem rebuild_array (items : List Value) :
    (Value.array items).rebuild atMapping atNode =
      .array (items.map (rebuild atMapping atNode)) := by
  have hitems : rebuild.rebuildItems atMapping atNode items =
      items.map (rebuild atMapping atNode) := by
    induction items with
    | nil => rfl
    | cons item rest ih => rw [rebuild.rebuildItems, ih, List.map_cons]
  rw [rebuild, hitems]

theorem rebuildFields_eq_mapValues (fields : Fields) :
    rebuild.rebuildFields atMapping atNode fields =
      fields.mapValues (rebuild atMapping atNode) := by
  induction fields with
  | nil => rfl
  | cons entry rest ih =>
    obtain ⟨key, held⟩ := entry
    rw [rebuild.rebuildFields, ih]
    rfl

end

theorem toEstree_mapping (fields : Fields) :
    (Value.mapping fields).toEstree = .mapping (fields.mapValues toEstree) := by
  rw [toEstree, rebuild, rebuildFields_eq_mapValues]

theorem toEstree_node (tag : String) (fields : Fields) :
    (Value.node tag fields).toEstree =
      .mapping (("type", .text tag) :: fields.mapValues toEstree) := by
  rw [toEstree, rebuild, rebuildFields_eq_mapValues]

theorem typeFirst_mapping (fields : Fields) :
    (Value.mapping fields).typeFirst = .mapping (fields.mapValues typeFirst).typeAhead := by
  rw [typeFirst, rebuild, rebuildFields_eq_mapValues]

theorem typeFirst_of_absent (habsent : "type" ∉ Fields.keys fields) :
    (Value.mapping fields).typeFirst = .mapping (fields.mapValues typeFirst) := by
  rw [typeFirst_mapping, Fields.typeAhead_of_absent]
  rwa [Fields.keys_mapValues]

theorem typeFirst_between (tag : String) {before after : Fields}
    (habsent : "type" ∉ Fields.keys (before ++ after)) :
    (Value.mapping (before ++ ("type", .text tag) :: after)).typeFirst =
      .mapping (("type", .text tag) :: Fields.mapValues typeFirst (before ++ after)) := by
  rw [← Fields.keys_mapValues typeFirst, Fields.mapValues_append] at habsent
  rw [typeFirst_mapping, Fields.mapValues_append, Fields.mapValues_append]
  exact congrArg Value.mapping (Fields.typeAhead_between (.text tag) habsent)

/-- The tags of a plain value can be put back. -/
theorem toEstree_ofEstree (hplain : value.isPlain = true) :
    value.ofEstree.toEstree = value.typeFirst := by
  induction value using induction_on_inside with
  | hleaf value hbranch hfields =>
    cases value with
    | array => cases hbranch
    | mapping | node => cases hfields
    | _ => rfl
  | harray items ih =>
    rw [isPlain_array_iff] at hplain
    rw [ofEstree_array, toEstree, typeFirst, rebuild_array, rebuild_array, List.map_map]
    refine congrArg Value.array (List.map_congr_left fun item hitem => ?_)
    exact ih item hitem (hplain item hitem)
  | hmapping fields ih =>
    have hinside : ∀ held ∈ fields.map Prod.snd, held.ofEstree.toEstree = held.typeFirst :=
      fun held hheld => ih held hheld (isPlain_of_mem_mapping hplain held hheld)
    rcases cases_of_isPlain hplain with habsent | ⟨tag, before, after, rfl, habsent⟩
    · rw [ofEstree_of_absent habsent, toEstree_mapping, typeFirst_of_absent habsent,
        Fields.mapValues_mapValues]
      exact congrArg Value.mapping (Fields.mapValues_congr hinside)
    · have hothers : ∀ held ∈ (before ++ after).map Prod.snd,
          held.ofEstree.toEstree = held.typeFirst := by
        intro held hheld
        refine hinside held ?_
        rw [List.map_append, List.mem_append] at hheld
        rw [List.map_append, List.map_cons, List.mem_append, List.mem_cons]
        exact hheld.imp_right .inr
      rw [ofEstree_between tag habsent, toEstree_node, typeFirst_between tag habsent,
        Fields.mapValues_mapValues]
      exact congrArg (fun fields => Value.mapping (("type", .text tag) :: fields))
        (Fields.mapValues_congr hothers)
  | hnode tag fields => cases hplain

end Recovery

/-- The conversion of parser output gives a normal form.  A second conversion changes nothing.  At
each position of the result that belongs to no node that was there before, no record has an entry
`type`; what belongs to such a node is untouched.  Where all is plain, putting the tag of each node
back as the entry `type` gives the value again, with all entries in their order but for every
`type`, which now comes first. -/
theorem ofEstree_normal_form (value : Value) :
    value.ofEstree.ofEstree = value.ofEstree ∧
      (∀ position part, value.ofEstree.reach? position = some part →
        (value.meetsNode position = true ∧ value.reach? position = some part) ∨
          (value.meetsNode position = false ∧ (value.reach? position).map ofEstree = some part ∧
            part.lookup "type" = none)) ∧
      (value.isPlain = true → value.ofEstree.toEstree = value.typeFirst) :=
  ⟨ofEstree_ofEstree value, fun _ _ => reach?_ofEstree, toEstree_ofEstree⟩

/-- A sum as a parser hands it over: tags in different places, and a record without one. -/
def parsedSum : Value :=
  .mapping [("operator", .text "+"), ("type", .text "BinaryExpression"),
    ("left", .mapping [("type", .text "Identifier"), ("name", .text "a")]),
    ("right", .mapping [("value", .int 1), ("type", .text "Literal")]),
    ("range", .array [.int 0, .mapping [("end", .int 5)]])]

/-- A node that has a field `type` and holds a mapping with such an entry. -/
def givenLiteral : Value :=
  .node "Literal" [("type", .null), ("value", .mapping [("type", .text "Super")])]

/-- Parser output with a node in it, beside a `type` that is no text. -/
def halfConverted : Value :=
  .array [.mapping [("type", .mapping [("type", .text "Super")]), ("given", givenLiteral)]]

theorem ofEstree_normal_form_nested :
    (parsedSum.isPlain = true ∧ parsedSum.ofEstree.toEstree = parsedSum.typeFirst) ∧
      (halfConverted.ofEstree.reach? [.item 0] = some (.mapping [("given", givenLiteral)]) ∧
        (Value.mapping [("given", givenLiteral)]).lookup "type" = none) ∧
      halfConverted.ofEstree.reach? [.item 0, .field "given"] = some givenLiteral ∧
        halfConverted.reach? [.item 0, .field "given"] = some givenLiteral := by
  have hplain : parsedSum.isPlain = true := by decide
  have houter : halfConverted.ofEstree.reach? [.item 0] =
      some (.mapping [("given", givenLiteral)]) := rfl
  have hinner : halfConverted.ofEstree.reach? [.item 0, .field "given"] = some givenLiteral := rfl
  refine ⟨⟨hplain, (ofEstree_normal_form parsedSum).2.2 hplain⟩, ⟨houter, ?_⟩, hinner, ?_⟩
  · rcases (ofEstree_normal_form halfConverted).2.1 _ _ houter with ⟨hmeets, -⟩ | ⟨-, -, htype⟩
    · cases hmeets
    · exact htype
  · rcases (ofEstree_normal_form halfConverted).2.1 _ _ hinner with ⟨-, hkept⟩ | ⟨hmeets, -⟩
    · exact hkept
    · cases hmeets

end Value

end Debundle
