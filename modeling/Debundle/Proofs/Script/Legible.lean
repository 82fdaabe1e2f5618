import Debundle.Proofs.Script.Detail
import Debundle.Proofs.Script.Template

/-!
# Scripts whose texts are lexemes

A script that has been read is made of lexemes: its names are words, its operators are those of
the language, and its literals are literals.  Such a script falls into lexemes again when it is
printed.

A name is no reserved word, except where only a name can stand: behind a point, and as the key of
a property or a method.
-/

namespace Debundle

open Attempt Lexer

/-- Whether the field of a node of this kind may hold a reserved word for a name. -/
def Kind.holdsKey (kind : Kind) (isComputed : Bool) (key : String) : Bool :=
  match kind with
  | .memberExpression => key == "property" && !isComputed
  | .property | .methodDefinition => key == "key" && !isComputed
  | .metaProperty => true
  | _ => false

/-- Whether a word is the spelling of an operator of the given sort. -/
def Operator.isSpelling (Op : Type) [Operator Op] (word : String) : Bool :=
  (all : List Op).any fun op => spelling op == word

theorem Operator.exists_of_isSpelling {Op : Type} [Operator Op] {word : String}
    (hword : isSpelling Op word = true) : ∃ op : Op, spelling op = word := by
  obtain ⟨op, -, hop⟩ := List.any_eq_true.1 hword
  exact ⟨op, beq_iff_eq.1 hop⟩

/-- The keywords of variable declarations. -/
def declarationWords : List String :=
  ["const", "let", "var"]

namespace Value

open Operator

/-- The text in a field. -/
def textAt? (node : Value) (key : String) : Option String :=
  match node.lookup key with
  | some (.text content) => some content
  | _ => none

theorem lookup_of_textAt? {node : Value} {key content : String}
    (hcontent : node.textAt? key = some content) : node.lookup key = some (.text content) := by
  rw [textAt?] at hcontent
  cases hlookup : node.lookup key with
  | none =>
    rw [hlookup] at hcontent
    cases hcontent
  | some found =>
    rw [hlookup] at hcontent
    cases found with
    | text held =>
      cases hcontent
      rfl
    | _ => cases hcontent

/-- The number of items in a field that holds an array. -/
def itemCount (node : Value) (key : String) : Nat :=
  match node.lookup key with
  | some (.array items) => items.length
  | _ => 0

/-- The texts in a node itself are lexemes of the language. -/
def hasSpelling (node : Value) (isKey : Bool) : Bool :=
  match node.kind with
  | .identifier => (node.textAt? "name").any fun word =>
    isWord word && (isKey || !reservedWords.contains word)
  | .literal => node.literalSource.toOption.any fun text =>
    isLiteral text && (!isNumber text || node.isNumeric)
  | .unaryExpression => (node.textAt? "operator").any (isSpelling UnaryOp)
  | .updateExpression => (node.textAt? "operator").any (isSpelling UpdateOp)
  | .binaryExpression | .logicalExpression =>
    (node.textAt? "operator").any (isSpelling BinaryOp)
  | .assignmentExpression => (node.textAt? "operator").any (isSpelling AssignOp)
  | .variableDeclaration => declarationWords.contains (declarationKeyword node)
  | .sequenceExpression => node.itemCount "expressions" != 0
  | .yieldExpression => !node.flag "delegate" || (node.given? "argument").isSome
  | .metaProperty => ((node.lookup "meta").bind fun owner => owner.textAt? "name").any fun word =>
    ["import", "new"].contains word
  | .templateElement => ((node.lookup "value").bind fun held => held.textAt? "raw").any fun raw =>
    isPiece raw.toList
  | .templateLiteral => node.itemCount "quasis" == node.itemCount "expressions" + 1
  | _ => true

/-- The texts in all nodes inside a value are lexemes of the language. -/
def isSpelt : Value → Bool → Bool
  | .node tag fields, isKey =>
    (Value.node tag fields).hasSpelling isKey &&
      fieldsSpelt (Kind.ofTag tag) ((Value.node tag fields).flag "computed") fields
  | .array items, _ => itemsSpelt items
  | _, _ => true
where
  itemsSpelt : List Value → Bool
    | [] => true
    | item :: rest => item.isSpelt false && itemsSpelt rest
  fieldsSpelt (kind : Kind) (isComputed : Bool) : List (String × Value) → Bool
    | [] => true
    | (key, value) :: rest =>
      value.isSpelt (kind.holdsKey isComputed key) && fieldsSpelt kind isComputed rest

theorem itemsSpelt_iff {items : List Value} :
    isSpelt.itemsSpelt items = true ↔ ∀ item ∈ items, item.isSpelt false = true := by
  induction items with
  | nil => simp [isSpelt.itemsSpelt]
  | cons item rest ih => simp [isSpelt.itemsSpelt, ih]

theorem fieldsSpelt_iff {kind : Kind} {isComputed : Bool} {fields : Fields} :
    isSpelt.fieldsSpelt kind isComputed fields = true ↔
      ∀ entry ∈ fields, entry.2.isSpelt (kind.holdsKey isComputed entry.1) = true := by
  induction fields with
  | nil => simp [isSpelt.fieldsSpelt]
  | cons entry rest ih => simp [isSpelt.fieldsSpelt, ih]

/-- The value is what the slot holds, in full detail and made of lexemes. -/
structure Legible (slot : Slot) (isKey : Bool) (value : Value) : Prop where
  printable : value.Printable slot
  spelt : value.isSpelt isKey = true

/-- A word that may be printed as a name. -/
structure IsName (isKey : Bool) (name : Value) (word : String) : Prop where
  text : name = .text word
  isWord : isWord word = true
  unreserved : isKey = false → word ∉ reservedWords

namespace Legible

variable {value child : Value} {slot inner : Slot} {isKey : Bool} {kind : Kind}
  {kinds others : List Kind} {key : String}

theorem kind_mem (hvalue : value.Legible (.one kinds) isKey) : value.kind ∈ kinds :=
  hvalue.printable.kind_mem

theorem refit (hvalue : value.Legible (.one kinds) isKey) (hkind : value.kind ∈ others) :
    value.Legible (.one others) isKey :=
  ⟨hvalue.printable.refit hkind, hvalue.spelt⟩

theorem given (hvalue : value.Legible (.optional kinds) isKey) (hnull : value.isNull = false) :
    value.Legible (.one kinds) isKey :=
  ⟨hvalue.printable.given hnull, hvalue.spelt⟩

variable (hvalue : value.Legible slot isKey)

include hvalue

theorem hasSpelling (hnode : value.kind ≠ .unknown) : value.hasSpelling isKey = true := by
  have hspelt := hvalue.spelt
  cases value with
  | node tag fields =>
    rw [isSpelt, Bool.and_eq_true] at hspelt
    exact hspelt.1
  | _ => exact absurd rfl hnode

/-- Only a name may be a reserved word. -/
theorem unkeyed (hkind : value.kind ≠ .identifier) : value.Legible slot false := by
  refine ⟨hvalue.printable, ?_⟩
  have hspelt := hvalue.spelt
  cases value with
  | node tag fields =>
    rw [isSpelt] at hspelt ⊢
    rw [← hspelt]
    congr 1
    simp only [Value.hasSpelling]
    split <;> first | rfl | contradiction
  | _ => exact hspelt

theorem name_yields (hidentifier : value.kind = .identifier) :
    Yields (fun name => ∃ word, IsName isKey name word) value.name := by
  have hspelling := hvalue.hasSpelling (by simp [hidentifier])
  simp only [Value.hasSpelling, hidentifier] at hspelling
  obtain ⟨word, hword, hspelled⟩ := (Option.any_eq_true _ _).1 hspelling
  rw [Bool.and_eq_true, Bool.or_eq_true] at hspelled
  refine ⟨_, name_eq_ok (lookup_of_textAt? hword), word, rfl, hspelled.1, fun hkey => ?_⟩
  simpa [hkey] using hspelled.2

variable (hkind : value.kind = kind)

include hkind

theorem field_keyed (hslot : kind.slot key = inner) (hplain : inner ≠ .plain)
    (hlookup : value.lookup key = some child) :
    child.Legible inner (kind.holdsKey (value.flag "computed") key) := by
  refine ⟨hvalue.printable.field hkind hslot hplain hlookup, ?_⟩
  subst hslot hkind
  have hspelt := hvalue.spelt
  cases value with
  | node tag fields =>
    rw [isSpelt, Bool.and_eq_true, fieldsSpelt_iff] at hspelt
    exact hspelt.2 _ (Fields.mem_of_get? hlookup)
  | _ => exact absurd rfl hplain

theorem require_yields_keyed (hslot : kind.slot key = .one kinds) :
    Yields (fun part => part.value.Legible (.one kinds)
      (kind.holdsKey (value.flag "computed") key)) (value.require key) := by
  obtain ⟨part, hpart, -⟩ := hvalue.printable.require_yields hkind hslot
  exact ⟨part, hpart, hvalue.field_keyed hkind hslot Slot.noConfusion
    (lookup_of_part? (require_eq_ok_iff.1 hpart))⟩

section

variable (hkey : kind.holdsKey (value.flag "computed") key = false)

include hkey

theorem field (hslot : kind.slot key = inner) (hplain : inner ≠ .plain)
    (hlookup : value.lookup key = some child) : child.Legible inner false :=
  hkey ▸ hvalue.field_keyed hkind hslot hplain hlookup

theorem require_yields (hslot : kind.slot key = .one kinds) :
    Yields (fun part => part.value.Legible (.one kinds) false) (value.require key) :=
  hkey ▸ hvalue.require_yields_keyed hkind hslot

theorem part?_cases (hslot : kind.slot key = .optional kinds) :
    value.part? key = none ∨
      ∃ part, value.part? key = some part ∧ part.value.Legible (.optional kinds) false := by
  cases hpart : value.part? key with
  | none => exact .inl rfl
  | some part =>
    exact .inr ⟨part, rfl, hvalue.field hkind hkey hslot Slot.noConfusion (lookup_of_part? hpart)⟩

theorem given?_cases (hslot : kind.slot key = .optional kinds) :
    value.given? key = none ∨
      ∃ part, value.given? key = some part ∧ part.value.Legible (.one kinds) false := by
  rw [given?]
  rcases hvalue.part?_cases hkind hkey hslot with hnone | ⟨part, hpart, hlegible⟩
  · exact .inl (by rw [hnone, Option.filter_none])
  · rw [hpart, Option.filter_some]
    cases hnull : part.value.isNull with
    | true => exact .inl rfl
    | false => exact .inr ⟨part, rfl, hlegible.given hnull⟩

end

theorem exists_array (hslot : kind.slot key = .many kinds) :
    ∃ items, value.lookup key = some (.array items) ∧
      ∀ item ∈ items, item.Legible (.one kinds) false := by
  obtain ⟨child, hlookup, hchild⟩ := hvalue.printable.exists_field hkind hslot rfl
  obtain ⟨items, rfl, hprintable⟩ := hchild.exists_items
  have hspelt := (hvalue.field_keyed hkind hslot Slot.noConfusion hlookup).spelt
  rw [isSpelt, itemsSpelt_iff] at hspelt
  exact ⟨items, hlookup, fun item hitem => ⟨hprintable item hitem, hspelt item hitem⟩⟩

theorem listAt_yields {list : Slot} (hslot : kind.slot key = list)
    (hitems : list.items? = some inner) (hneeded : list.mayMiss = false) :
    Yields (fun parts => ∀ part ∈ parts, part.value.Legible inner false) (value.listAt key) := by
  have hplain : list ≠ .plain := by
    rintro rfl
    cases hneeded
  obtain ⟨child, hlookup, hchild⟩ := hvalue.printable.exists_field hkind hslot hneeded
  obtain ⟨items, rfl, -⟩ := exists_items_of_fills hchild.fills hitems hplain
  have hspelt := (hvalue.field_keyed hkind hslot hplain hlookup).spelt
  rw [isSpelt, itemsSpelt_iff] at hspelt
  obtain ⟨parts, hparts, hprintable⟩ := hvalue.printable.listAt_yields hkind hslot hitems hneeded
  obtain ⟨found, hfound, rfl⟩ := listAt_of_array hlookup
  cases hparts.symm.trans hfound
  exact ⟨parts, hparts, fun part hpart =>
    ⟨hprintable part hpart, hspelt _ (List.mem_map_of_mem hpart)⟩⟩

end Legible

end Value

namespace Part

open Value

variable {whole : Value} {part : Part whole} {kind : Kind} {kinds inside : List Kind}
  {isKey : Bool} {key : String} (hpart : part.value.Legible (.one inside) isKey)
  (hkind : part.value.kind = kind)

include hpart hkind

theorem require_legible (hslot : kind.slot key = .one kinds)
    (hkey : kind.holdsKey (part.value.flag "computed") key = false) :
    Yields (fun found => found.value.Legible (.one kinds) false) (part.require key) :=
  (hpart.require_yields hkind hkey hslot).bind fun _ hfound => .pure hfound

theorem listAt_legible (hslot : kind.slot key = .many kinds) :
    Yields (fun parts => ∀ found ∈ parts, found.value.Legible (.one kinds) false)
      (part.listAt key) := by
  rw [listAt, hpart.printable.asRecord]
  refine (hpart.listAt_yields hkind hslot rfl rfl).bind fun parts hparts => .pure ?_
  exact List.forall_mem_map.2 hparts

theorem given?_legible (hslot : kind.slot key = .optional kinds)
    (hkey : kind.holdsKey (part.value.flag "computed") key = false) :
    Yields (fun found? => ∀ found ∈ found?, found.value.Legible (.one kinds) false)
      (part.given? key) := by
  rw [given?, hpart.printable.asRecord]
  refine .pure fun found hfound => ?_
  rcases hpart.given?_cases hkind hkey hslot with hnone | ⟨held, hheld, hlegible⟩
  · rw [hnone] at hfound
    cases hfound
  · rw [hheld] at hfound
    cases hfound
    exact hlegible

end Part

end Debundle
