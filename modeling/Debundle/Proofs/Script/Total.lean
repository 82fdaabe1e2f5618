import Debundle.Proofs.Script.Detail

/-!
# Printing a script in full detail

What is needed to print a node that stands in a script: the node itself is in full detail,
and its parts are printed.  The pieces that several rules share are then printed too.
-/

namespace Debundle

open Attempt

namespace Value

variable {value : Value} (htext : value.isText = true)

include htext

theorem asAppended_yields : Yields Anything value.asAppended := by
  obtain ⟨text, rfl⟩ := exists_text htext
  exact .anything

theorem asStarting_yields : Yields Anything value.asStarting := by
  obtain ⟨text, rfl⟩ := exists_text htext
  exact .anything

theorem extend_yields (behind : String) :
    Yields (fun extended => extended.isText = true) (value.extend behind) := by
  obtain ⟨text, rfl⟩ := exists_text htext
  exact .pure rfl

theorem add_yields {other : Value} (hother : other.isText = true) :
    Yields (fun sum => sum.isText = true) (value.add other) := by
  obtain ⟨text, rfl⟩ := exists_text htext
  obtain ⟨behind, rfl⟩ := exists_text hother
  exact .pure rfl

end Value

theorem joined_yields {separator : String} {pieces : List Value}
    (hpieces : ∀ piece ∈ pieces, piece.isText = true) :
    Yields Anything (joined separator pieces) := by
  refine (Yields.mapM_anything fun entry hentry => ?_).bind fun _ _ => .anything
  obtain ⟨piece, index⟩ := entry
  obtain ⟨text, rfl⟩ := Value.exists_text (hpieces piece (List.fst_mem_of_mem_zipIdx hentry))
  exact .anything

theorem commaSeparated_yields {pieces : List Value}
    (hpieces : ∀ piece ∈ pieces, piece.isText = true) : Yields Anything (commaSeparated pieces) :=
  joined_yields hpieces

/-- A step that gives a text. -/
abbrev YieldsText (step : Except Fault Value) : Prop :=
  Yields (fun content => content.isText = true) step

/-- The node is in full detail, and its parts are printed, the expressions among them as
texts. -/
structure Printing (slot : Slot) {node : Value} (printer : Printer node) : Prop where
  printable : node.Printable slot
  expression : ∀ part : Part node, part.value.Printable (.one Kind.phrases) →
    ∀ noIn strength level, YieldsText ((printer.inner noIn part).expression strength level)
  statement : ∀ part : Part node, part.value.Printable (.one Kind.statements) →
    ∀ noIn level, Yields Anything ((printer.inner noIn part).statement level)

namespace Printing

open Value Kind

variable {slot : Slot} {node : Value} {printer : Printer node} {kind : Kind}
  {kinds inside : List Kind} {key : String} {part : Part node} {parts : List (Part node)}
  {strength : Nat} {level : Int} (hprinting : Printing slot printer)

include hprinting

theorem expression_yields (hpart : part.value.Printable (.one kinds))
    (hkinds : kinds.all phrases.contains = true) :
    YieldsText (printer.expression part strength level) :=
  hprinting.expression part (hpart.refit (mem_of_all hkinds hpart.kind_mem)) _ strength level

theorem statement_yields (hpart : part.value.Printable (.one statements)) :
    Yields Anything (printer.statement part level) :=
  hprinting.statement part hpart _ level

theorem expressionAt_yields (hkind : node.kind = kind) (hslot : kind.slot key = .one kinds)
    (hkinds : kinds.all phrases.contains = true) :
    YieldsText (printer.expressionAt key strength level) :=
  (hprinting.printable.require_yields hkind hslot).bind fun _ hpart =>
    hprinting.expression_yields hpart hkinds

/-- What is printed for a part that may be missing. -/
theorem given_yields {α : Type} {fits : α → Prop} {missing : Except Fault α}
    {given : Part node → Except Fault α} (hkind : node.kind = kind)
    (hslot : kind.slot key = .optional kinds) (hmissing : Yields fits missing)
    (hgiven : ∀ part : Part node, part.value.Printable (.one kinds) → Yields fits (given part)) :
    Yields fits ((node.given? key).elim missing given) := by
  rcases hprinting.printable.given?_cases hkind hslot with hnone | ⟨part, hpart, hprintable⟩
  · rwa [hnone]
  · rw [hpart]
    exact hgiven part hprintable

theorem expressions_yield (hparts : ∀ part ∈ parts, part.value.Printable (.one kinds))
    (hkinds : kinds.all phrases.contains = true) :
    Yields (fun pieces => ∀ piece ∈ pieces, piece.isText = true)
      (printer.expressions parts level) :=
  .mapM fun part hpart => hprinting.expression_yields (hparts part hpart) hkinds

theorem lines_yield (hparts : ∀ part ∈ parts, part.value.Printable (.one statements)) :
    Yields Anything (printer.lines parts level) :=
  (Yields.mapM_anything fun part hpart =>
    (hprinting.statement_yields (hparts part hpart)).bind fun _ _ => .anything).bind
      fun _ _ => .anything

theorem braced_yields (hparts : ∀ part ∈ parts, part.value.Printable (.one statements)) :
    Yields Anything (printer.braced parts level) :=
  .ite (fun _ => .anything) fun _ =>
    (hprinting.lines_yield hparts).bind fun _ _ => .anything

theorem block_yields (hpart : part.value.Printable (.one kinds))
    (hblock : part.value.kind = .blockStatement) : Yields Anything (printer.block part level) :=
  (Part.listAt_yields hpart hblock rfl).bind fun _ hparts => hprinting.braced_yields hparts

theorem functionTail_yields {params : Except Fault (List (Part node))}
    {body : Except Fault (Part node)}
    (hparams : Yields (fun parts => ∀ part ∈ parts, part.value.Printable (.one targets)) params)
    (hbody : Yields (fun part => part.value.Printable (.one kinds) ∧
      part.value.kind = .blockStatement) body) :
    Yields Anything (printer.functionTail params body level) := by
  refine hparams.bind fun parts hparts => ?_
  refine (hprinting.expressions_yield hparts rfl).bind fun _ hpieces => ?_
  refine (commaSeparated_yields hpieces).bind fun _ _ => ?_
  exact hbody.bind fun _ hpart =>
    (hprinting.block_yields hpart.1 hpart.2).bind fun _ _ => .anything

theorem functionTailOf_yields (hpart : part.value.Printable (.one kinds))
    (hfunction : part.value.kind = .functionExpression) :
    Yields Anything (printer.functionTailOf (some part) level) :=
  hprinting.functionTail_yields (Part.listAt_yields hpart hfunction rfl)
    (Part.body_yields hpart hfunction)

theorem propertyKey_yields (hpart : part.value.Printable (.one inside))
    (hkind : part.value.kind = kind) (hslot : kind.slot "key" = .one expressions) :
    YieldsText (printer.propertyKey part level) := by
  obtain ⟨_, hlookup, hkey⟩ := hpart.exists_field hkind hslot rfl
  obtain ⟨held, hheld, rfl⟩ := exists_part hlookup
  have hprinted : ∀ strength, YieldsText
      (printer.expressionOf ((part.value.part? "key").map part.within) strength level) := by
    intro strength
    rw [hheld]
    exact hprinting.expression_yields hkey rfl
  exact .ite (fun _ => (hprinted _).bind fun _ _ => .pure rfl) fun _ => hprinted _

theorem declaration_yields {keyword : String} {declarations : Except Fault (List (Part node))}
    (hparts : Yields (fun parts => ∀ part ∈ parts,
      part.value.Printable (.one [.variableDeclarator])) declarations) :
    Yields Anything (printer.declaration declarations keyword level) := by
  refine hparts.bind fun parts hparts => ?_
  refine (Yields.mapM fun declarator hmem => ?_).bind fun _ hpieces =>
    (commaSeparated_yields hpieces).bind fun _ _ => .anything
  have hdeclarator := hparts declarator hmem
  have hkind := List.mem_singleton.1 hdeclarator.kind_mem
  refine (Part.require_yields hdeclarator hkind rfl).bind fun _ hid => ?_
  refine (hprinting.expression_yields hid rfl).bind fun _ htarget => ?_
  refine (Part.given?_yields hdeclarator hkind rfl).bind fun init? hinit => ?_
  cases init? with
  | none => exact .pure htarget
  | some init =>
    refine (hprinting.expression_yields (hinit init rfl) rfl).bind fun _ hvalue => ?_
    exact (asAppended_yields hvalue).bind fun _ _ => extend_yields htarget _

end Printing

end Debundle
