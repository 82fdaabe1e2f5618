import Debundle.Proofs.Rename.Revision
import Debundle.Script.Print

/-!
# Printing a renamed tree

A renaming changes texts, and a text decides about parentheses and about shorthand
properties.  It never decides about success: each printing rule succeeds on a renamed node
where it succeeds on the node itself, if that holds for the parts of the node.
-/

namespace Debundle

open Renaming

namespace Value

/-- Values that the printing rules treat alike.  Only of texts the content may differ. -/
inductive Alike : Value → Value → Prop where
  | same (value : Value) : Alike value value
  | texts (text other : String) : Alike (.text text) (.text other)
  | arrays {items others : List Value} : items.length = others.length →
      Alike (.array items) (.array others)
  | nodes (tag : String) (fields others : Fields) : Alike (.node tag fields) (.node tag others)

/-- If the one value is a text, so is the other. -/
def KeepsText (before after : Value) : Prop :=
  ∀ text, before = .text text → ∃ other, after = .text other

namespace Alike

variable {registry : Registry} {before after left right : Value}

theorem of_revised (hrevised : Revised registry before after) : Alike before after := by
  cases hrevised.revision with
  | same => exact .same before
  | items hitems => exact .arrays hitems.length_eq
  | name => exact .nodes _ _ _
  | fields => exact .nodes _ _ _

theorem keepsText (halike : Alike before after) : KeepsText before after := by
  rintro text rfl
  cases halike with
  | same => exact ⟨text, rfl⟩
  | texts _ other => exact ⟨other, rfl⟩

theorem isTruthy_or (halike : Alike before after) :
    after.isTruthy = before.isTruthy ∨ ∃ text, after = .text text := by
  cases halike with
  | same => exact .inl rfl
  | texts _ other => exact .inr ⟨other, rfl⟩
  | @arrays items others hlength =>
    left
    cases items <;> cases others <;> simp_all [isTruthy]
  | nodes => exact .inl rfl

end Alike

/-- A step that takes texts only. -/
theorem follows_of_keepsText {step : Value → Except Fault String} {before after : Value}
    (hstep : ∀ text, step (.text text) = .ok text)
    (honly : ∀ value text, step value = .ok text → value = .text text)
    (hkeeps : KeepsText before after) : Follows Loosely (step before) (step after) := by
  intro text htext
  obtain ⟨other, rfl⟩ := hkeeps text (honly before text htext)
  exact ⟨other, hstep other, trivial⟩

variable {before after : Value} (hkeeps : KeepsText before after)

include hkeeps

theorem asAppended_follows : Follows Loosely before.asAppended after.asAppended :=
  follows_of_keepsText (fun _ => rfl) (fun value text htext => by
    cases value <;> cases htext; rfl) hkeeps

theorem asStarting_follows : Follows Loosely before.asStarting after.asStarting :=
  follows_of_keepsText (fun _ => rfl) (fun value text htext => by
    cases value <;> cases htext; rfl) hkeeps

theorem asPiece_follows (index : Nat) :
    Follows Loosely (before.asPiece index) (after.asPiece index) :=
  follows_of_keepsText (fun _ => rfl) (fun value text htext => by
    cases value <;> cases htext; rfl) hkeeps

theorem extend_follows (text other : String) :
    Follows Alike (before.extend text) (after.extend other) := by
  cases before with
  | text front =>
    obtain ⟨back, rfl⟩ := hkeeps front rfl
    exact .pure (.texts _ _)
  | _ => exact .error

omit hkeeps in
/-- Texts and arrays are put behind each other, and all other sums are those of values that
have not changed. -/
theorem Alike.add_follows {left right sum total : Value} (hleft : Alike left right)
    (hsum : Alike sum total) : Follows Alike (left.add sum) (right.add total) := by
  cases hleft with
  | same =>
    cases hsum with
    | same => exact fun value hvalue => ⟨value, hvalue, .same value⟩
    | texts => cases left <;> first | exact .pure (.texts _ _) | exact .error
    | arrays hlength =>
      cases left <;> first | exact .pure (.arrays (by simp [hlength])) | exact .error
    | nodes => cases left <;> exact .error
  | texts =>
    cases hsum with
    | same => cases sum <;> first | exact .pure (.texts _ _) | exact .error
    | texts => exact .pure (.texts _ _)
    | _ => exact .error
  | arrays hlength =>
    cases hsum with
    | same => cases sum <;> first | exact .pure (.arrays (by simp [hlength])) | exact .error
    | arrays hothers => exact .pure (.arrays (by simp [hlength, hothers]))
    | _ => exact .error
  | nodes => cases sum <;> exact .error

end Value

/-- Pieces are joined if all of them are texts. -/
theorem joined_follows {separator : String} {pieces others : List Value}
    (hpieces : List.Forall₂ Value.KeepsText pieces others) :
    Follows Loosely (joined separator pieces) (joined separator others) :=
  (Follows.mapM_zipIdx hpieces fun _ _ index hpiece => Value.asPiece_follows hpiece index).loosely

namespace Value

theorem elements_of_asPair {value : Value} {pair : Value × Value}
    (hpair : value.asPair = .ok pair) : value.elements = .ok [pair.1, pair.2] := by
  rw [asPair] at hpair
  split at hpair
  · next first second helements =>
      cases hpair
      exact helements
  · split at hpair <;> cases hpair
  · cases hpair
  · cases hpair

namespace Revised

variable {registry : Registry} {before after : Value}

/-- A name is kept, or it is a text and replaced by one. -/
theorem name_follows (hrevised : Revised registry before after) :
    Follows Alike before.name after.name := by
  intro name hname
  have hlookup := lookup_of_name hname
  rcases hrevised.lookup_cases "name" with ⟨hnone, -⟩ | ⟨old, new, hold, hnew, hfield⟩
  · cases hnone.symm.trans hlookup
  · cases hold.symm.trans hlookup
    refine ⟨new, name_eq_ok hnew, ?_⟩
    rcases hfield with (⟨hrevised, -⟩ | ⟨-, hkey, -⟩) | ⟨-, -, text, other, htext, hother⟩
    · exact .of_revised hrevised
    · exact absurd hkey (by decide)
    · rw [htext, hother]
      exact .texts text other

mutual

/-- A renaming keeps a value that can be looked up in a table: there is no node in it. -/
theorem eq_of_isKey (before after : Value) (hkey : before.isKey = true)
    (hrevised : Revised registry before after) : after = before := by
  cases before with
  | array items =>
    cases hrevised.revision with
    | same => rfl
    | @items _ others hitems => rw [items_eq_of_areKeys items others hkey hitems]
  | mapping | node => cases hkey
  | _ => exact hrevised.eq_of_leaf rfl

theorem items_eq_of_areKeys (items others : List Value) (hkeys : isKey.areKeys items = true)
    (hitems : List.Forall₂ (Revised registry) items others) : others = items := by
  cases items with
  | nil => exact List.forall₂_nil_left_iff.1 hitems
  | cons item rest =>
    rw [isKey.areKeys, Bool.and_eq_true] at hkeys
    obtain ⟨other, others, hfirst, hrest, rfl⟩ := List.forall₂_cons_left_iff.1 hitems
    rw [eq_of_isKey item other hkeys.1 hfirst, items_eq_of_areKeys rest others hkeys.2 hrest]

end

theorem accessor?_eq (hrevised : Revised registry before after) :
    after.accessor? = before.accessor? := by
  rw [accessor?, accessor?]
  rcases hrevised.lookup_eq_or_branches "kind" rfl with
    heq | ⟨old, new, hold, hnew, hbranch, hother⟩
  · rw [heq]
  · rw [hold, hnew]
    cases old with
    | array | node =>
      cases new with
      | array | node => rfl
      | _ => cases hother
    | _ => cases hbranch

theorem asKey_follows (hrevised : Revised registry before after) :
    Follows Eq (before.asKey .fixed) (after.asKey .fixed) := by
  intro key hkey
  have hisKey := isKey_of_asKey hkey
  rw [eq_of_asKey hkey] at hisKey
  rw [eq_of_isKey before after hisKey hrevised]
  exact ⟨key, hkey, rfl⟩

theorem containsCall_eq (hrevised : Revised registry before after) :
    after.containsCall = before.containsCall := by
  induction hsize : before.size using Nat.strongRecOn generalizing before after with
  | ind size ih =>
    have hinner : ∀ (part : Part before) (new : Part after), part.Revised registry new →
        new.value.containsCall = part.value.containsCall :=
      fun part _ hpart => ih part.value.size (hsize ▸ part.smaller) hpart rfl
    have hobject := hrevised.part?_rel "object" rfl
    have htag := hrevised.part?_rel "tag" rfl
    rw [containsCall, containsCall, hrevised.kind_eq]
    generalize before.part? "object" = object?, after.part? "object" = newObject? at hobject
    generalize before.part? "tag" = tag?, after.part? "tag" = newTag? at htag
    cases before.kind with
    | memberExpression =>
      cases hobject with
      | none => rfl
      | some hpart => exact hinner _ _ hpart
    | taggedTemplateExpression =>
      cases htag with
      | none => rfl
      | some hpart => exact hinner _ _ hpart
    | _ => rfl

theorem endsWithOpenIf_eq (hrevised : Revised registry before after) :
    after.endsWithOpenIf = before.endsWithOpenIf := by
  induction hsize : before.size using Nat.strongRecOn generalizing before after with
  | ind size ih =>
    have hinner : ∀ (part : Part before) (new : Part after), part.Revised registry new →
        new.value.endsWithOpenIf = part.value.endsWithOpenIf :=
      fun part _ hpart => ih part.value.size (hsize ▸ part.smaller) hpart rfl
    have halternate := hrevised.given?_rel "alternate" rfl
    have hbody := hrevised.part?_rel "body" rfl
    rw [endsWithOpenIf, endsWithOpenIf, hrevised.kind_eq]
    generalize before.given? "alternate" = last?, after.given? "alternate" = newLast? at halternate
    generalize before.part? "body" = body?, after.part? "body" = newBody? at hbody
    cases before.kind with
    | ifStatement =>
      cases halternate with
      | none => rfl
      | some hpart => exact hinner _ _ hpart
    | forStatement | forInStatement | forOfStatement | whileStatement | withStatement
    | labeledStatement =>
      cases hbody with
      | none => rfl
      | some hpart => exact hinner _ _ hpart
    | _ => rfl

theorem rangeBound_follows (hrevised : Revised registry before after) (length absent : Nat) :
    Follows Loosely (rangeBound length absent before) (rangeBound length absent after) := by
  cases hleaf : before.isBranch with
  | false =>
    rw [hrevised.eq_of_leaf hleaf]
    exact fun bound hbound => ⟨bound, hbound, trivial⟩
  | true =>
    cases before with
    | array | node => exact .error
    | _ => cases hleaf

theorem sliceText_follows {last final : Value} (source : String)
    (hfirst : Revised registry before after) (hlast : Revised registry last final) :
    Follows Loosely (sliceText source before last) (sliceText source after final) :=
  (hfirst.rangeBound_follows _ _).bind fun _ _ _ =>
    (hlast.rangeBound_follows _ _).loosely

theorem asPair_follows (hrevised : Revised registry before after) :
    Follows (fun pair other => Revised registry pair.1 other.1 ∧ Revised registry pair.2 other.2)
      before.asPair after.asPair := by
  intro pair hpair
  obtain ⟨items, hitems, hrelated⟩ :=
    hrevised.elements_follows [pair.1, pair.2] (elements_of_asPair hpair)
  obtain ⟨first, _, hfirst, hrest, rfl⟩ := List.forall₂_cons_left_iff.1 hrelated
  obtain ⟨second, _, hsecond, hnone, rfl⟩ := List.forall₂_cons_left_iff.1 hrest
  obtain rfl := List.forall₂_nil_left_iff.1 hnone
  exact ⟨(first, second), by rw [asPair, hitems], hfirst, hsecond⟩

theorem verbatim_follows (style : Style) (hrevised : Revised registry before after) :
    Follows Loosely (style.verbatim before) (style.verbatim after) := by
  cases before with
  | node tag fields =>
    obtain ⟨others, rfl⟩ : ∃ others, after = .node tag others := by
      cases hrevised.revision with
      | same => exact ⟨fields, rfl⟩
      | name => exact ⟨_, rfl⟩
      | fields => exact ⟨_, rfl⟩
    simp only [Style.verbatim]
    cases style.source with
    | none => exact .error
    | some source =>
      rcases hrevised.lookup_plain "range" rfl with
        ⟨hnone, -⟩ | ⟨range, new, hrange, hnew, hpart⟩
      · rw [hnone]
        exact .error
      · rw [hrange, hnew, Option.filter_some, Option.filter_some, hpart.isTruthy_eq]
        cases range.isTruthy with
        | false => exact .error
        | true => exact hpart.asPair_follows.bind fun _ _ hpair =>
          sliceText_follows source hpair.1 hpair.2
  | _ => exact .error

theorem literalText_follows (hrevised : Revised registry before after) :
    Follows Loosely (literalText ((before.lookup "value").getD .null))
      (literalText ((after.lookup "value").getD .null)) := by
  rcases hrevised.lookup_eq_or_branches "value" rfl with
    heq | ⟨old, new, hold, hnew, hbranch, -⟩
  · rw [heq]
    exact fun text htext => ⟨text, htext, trivial⟩
  · rw [hold]
    cases old with
    | array | node => exact .error
    | _ => cases hbranch

end Revised

end Value

/-- Both ways to print one value follow those to print the other. -/
structure Rendition.Follows (first second : Rendition) : Prop where
  statement : ∀ level, Debundle.Follows Loosely (first.statement level) (second.statement level)
  expression : ∀ strength level,
    Debundle.Follows Value.Alike (first.expression strength level)
      (second.expression strength level)

namespace Value

variable {registry : Registry} {style : Style} {value before after : Value} {noIn : Bool}

/-- The printer of a value whose parts are printed by the same rules, inside the first clause
of a `for` head or not. -/
def printerIn (style : Style) (noIn : Bool) (value : Value) : Printer value where
  style := style
  noIn := noIn
  inner := fun noIn part => part.value.print style noIn

theorem print_eq (style : Style) (noIn : Bool) (value : Value) :
    value.print style noIn = (value.printerIn style noIn).rendition := by
  rw [print]
  rfl

end Value

/-- The one printer prints its part where the other printer does. -/
abbrev Part.Mirrors {node other : Value} (first : Printer node) (second : Printer other)
    (before : Part node) (after : Part other) : Prop :=
  ∀ noIn, (first.inner noIn before).Follows (second.inner noIn after)

/-- A node was renamed, and its parts are printed where they were printed before. -/
structure Mirroring (registry : Registry) {node other : Value} (first : Printer node)
    (second : Printer other) : Prop where
  revised : Value.Revised registry node other
  style_eq : second.style = first.style
  noIn_eq : second.noIn = first.noIn
  inner_eq : ∀ noIn part, second.inner noIn part = part.value.print second.style noIn
  parts : ∀ part new, Part.Revised registry part new → part.Mirrors first second new
  /-- The argument of a call of `require` is a literal, and is replaced by one. -/
  literals : ∀ (part : Part node) (new : Part other) (name : Value),
    part.value.kind = .literal → new.value = requirePath name → part.Mirrors first second new

namespace Mirroring

open Value

variable {registry : Registry} {node other : Value} {first : Printer node} {second : Printer other}
  {part : Part node} {new : Part other} {parts : List (Part node)} {news : List (Part other)}
  {strength : Nat} {level : Int} (hmirror : Mirroring registry first second)

include hmirror

theorem expression_of_mirrors (hpart : part.Mirrors first second new) :
    Follows Alike (first.expression part strength level)
      (second.expression new strength level) := by
  rw [Printer.expression, Printer.expression, hmirror.noIn_eq]
  exact (hpart first.noIn).expression strength level

theorem expression_follows (hpart : part.Revised registry new) :
    Follows Alike (first.expression part strength level) (second.expression new strength level) :=
  hmirror.expression_of_mirrors (hmirror.parts part new hpart)

theorem statement_follows (hpart : part.Revised registry new) :
    Follows Loosely (first.statement part level) (second.statement new level) := by
  rw [Printer.statement, Printer.statement, hmirror.noIn_eq]
  exact (hmirror.parts part new hpart first.noIn).statement level

theorem expressionAt_follows {key : String} (hkey : isRewritten key = false) :
    Follows Alike (first.expressionAt key strength level)
      (second.expressionAt key strength level) :=
  (hmirror.revised.require_follows hkey).bind fun _ _ hpart =>
    hmirror.expression_follows hpart

/-- What is printed for a part that may be missing. -/
theorem given_follows {α : Type} {related : α → α → Prop} {missing otherMissing : Except Fault α}
    {given : Part node → Except Fault α} {otherGiven : Part other → Except Fault α} {key : String}
    (hkey : isRewritten key = false) (hmissing : Follows related missing otherMissing)
    (hgiven : ∀ part new, Part.Revised registry part new →
      Follows related (given part) (otherGiven new)) :
    Follows related ((node.given? key).elim missing given)
      ((other.given? key).elim otherMissing otherGiven) := by
  have hpart := hmirror.revised.given?_rel _ hkey
  generalize node.given? key = part?, other.given? key = new? at hpart
  cases hpart with
  | none => exact hmissing
  | some hpart => exact hgiven _ _ hpart

theorem expressionOf_follows {part? : Option (Part node)} {new? : Option (Part other)}
    (hpart : Option.Rel (Part.Revised registry) part? new?) :
    Follows Alike (first.expressionOf part? strength level)
      (second.expressionOf new? strength level) := by
  cases hpart with
  | none => exact .error
  | some hpart => exact hmirror.expression_follows hpart

theorem expressions_follow_of_mirrors
    (hparts : List.Forall₂ (Part.Mirrors first second) parts news) :
    Follows (List.Forall₂ Alike) (first.expressions parts level) (second.expressions news level) :=
  .mapM hparts fun _ _ => hmirror.expression_of_mirrors

theorem expressions_follow (hparts : List.Forall₂ (Part.Revised registry) parts news) :
    Follows (List.Forall₂ Alike) (first.expressions parts level) (second.expressions news level) :=
  hmirror.expressions_follow_of_mirrors (hparts.imp hmirror.parts)

omit hmirror in
theorem commaSeparated_follows {pieces others : List Value}
    (hpieces : List.Forall₂ Alike pieces others) :
    Follows Loosely (commaSeparated pieces) (commaSeparated others) :=
  joined_follows (hpieces.imp fun _ _ => Alike.keepsText)

theorem lines_follow (hparts : List.Forall₂ (Part.Revised registry) parts news) :
    Follows Loosely (first.lines parts level) (second.lines news level) :=
  (Follows.mapM hparts fun _ _ hpart =>
    (hmirror.statement_follows hpart).loosely).loosely

theorem braced_follows (hparts : List.Forall₂ (Part.Revised registry) parts news) :
    Follows Loosely (first.braced parts level) (second.braced news level) := by
  refine .ite ?_ (fun _ => .loose) fun _ => ?_
  · cases hparts <;> simp
  · exact (hmirror.lines_follow hparts).loosely

theorem block_follows (hpart : part.Revised registry new) :
    Follows Loosely (first.block part level) (second.block new level) :=
  (hpart.listAt_follows rfl).bind fun _ _ hparts => hmirror.braced_follows hparts

theorem functionTail_follows {params : Except Fault (List (Part node))}
    {others : Except Fault (List (Part other))} {body : Except Fault (Part node)}
    {tail : Except Fault (Part other)}
    (hparams : Follows (List.Forall₂ (Part.Revised registry)) params others)
    (hbody : Follows (Part.Revised registry) body tail) :
    Follows Loosely (first.functionTail params body level)
      (second.functionTail others tail level) := by
  refine hparams.bind fun _ _ hparts => ?_
  refine (hmirror.expressions_follow hparts).bind fun _ _ hpieces => ?_
  refine (commaSeparated_follows hpieces).bind fun _ _ _ => ?_
  exact hbody.bind fun _ _ hpart => (hmirror.block_follows hpart).loosely

theorem functionTailOf_follows {part? : Option (Part node)} {new? : Option (Part other)}
    (hpart : Option.Rel (Part.Revised registry) part? new?) :
    Follows Loosely (first.functionTailOf part? level) (second.functionTailOf new? level) := by
  cases hpart with
  | none => exact .error
  | some hpart =>
    exact hmirror.functionTail_follows (hpart.listAt_follows rfl) (hpart.require_follows rfl)

theorem propertyKey_follows (hpart : part.Revised registry new) :
    Follows Alike (first.propertyKey part level) (second.propertyKey new level) := by
  have hkey := hpart.part?_rel "key" rfl
  refine .ite ?_ (fun _ => ?_) fun _ => hmirror.expressionOf_follows hkey
  · rw [hpart.flag_eq _ rfl]
  · exact (hmirror.expressionOf_follows hkey).bind fun _ _ _ => .pure (.texts _ _)

theorem declaration_follows {declarations : Except Fault (List (Part node))}
    {others : Except Fault (List (Part other))}
    (hparts : Follows (List.Forall₂ (Part.Revised registry)) declarations others)
    {keyword otherKeyword : String} :
    Follows Loosely (first.declaration declarations keyword level)
      (second.declaration others otherKeyword level) := by
  refine hparts.bind fun _ _ hparts => ?_
  refine (Follows.mapM hparts fun declarator _ hdeclarator => ?_).bind fun _ _ hpieces =>
    (commaSeparated_follows hpieces).loosely
  refine (hdeclarator.require_follows rfl).bind fun _ _ hid => ?_
  refine (hmirror.expression_follows hid).bind fun target _ htarget => ?_
  refine (hdeclarator.given?_follows rfl).bind fun _ _ hinit => ?_
  cases hinit with
  | none => exact .pure htarget
  | some hinit =>
    refine (hmirror.expression_follows hinit).bind fun _ _ hvalue => ?_
    refine (asAppended_follows hvalue.keepsText).bind fun _ _ _ => ?_
    exact extend_follows htarget.keepsText _ _

end Mirroring

/-- Phrases of one strength that are treated alike. -/
structure Phrase.Alike (before after : Phrase) : Prop where
  content : Value.Alike before.content after.content
  strength : after.strength = before.strength

theorem Phrase.alike_ofText {text other : String} {strength : Nat} :
    Phrase.Alike (.ofText text strength) (.ofText other strength) :=
  ⟨.texts _ _, rfl⟩

theorem Follows.ofText {text other : String} {strength : Nat} : Follows Phrase.Alike
    (Pure.pure (.ofText text strength) : Except Fault Phrase)
    (Pure.pure (.ofText other strength)) :=
  .pure Phrase.alike_ofText

/-- Two results are printed as texts. -/
theorem Follows.printed {α β : Type} {relation : α → β → Prop} {first : Except Fault α}
    {second : Except Fault β} {f : α → String} {g : β → String} {strength : Nat}
    (hfirst : Follows relation first second) :
    Follows Phrase.Alike (first >>= fun value => Pure.pure (.ofText (f value) strength))
      (second >>= fun other => Pure.pure (.ofText (g other) strength)) :=
  hfirst.bind fun _ _ _ => .ofText

end Debundle
