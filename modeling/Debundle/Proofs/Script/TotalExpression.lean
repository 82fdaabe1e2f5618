import Debundle.Proofs.Script.Total

/-!
# Expressions of a script in full detail

Every rule for an expression gives a text.
-/

namespace Debundle

open Attempt

/-- A phrase that is a text. -/
def Phrase.IsText (phrase : Phrase) : Prop :=
  phrase.content.isText = true

namespace Printing

open Value Kind

variable {slot : Slot} {node : Value} {printer : Printer node} {kind : Kind}
  {kinds inside : List Kind} {key : String} {part : Part node} {parts : List (Part node)}
  {strength : Nat} {level : Int} (hprinting : Printing slot printer)

include hprinting

theorem identifier_yields (hkind : node.kind = .identifier) :
    Yields Phrase.IsText printer.identifier :=
  (hprinting.printable.name_yields hkind).bind fun _ hname => .pure hname

theorem array_yields (hkind : node.kind = kind) (hslot : kind.slot "elements" = .holey kinds)
    (hkinds : kinds.all phrases.contains = true) : Yields Phrase.IsText (printer.array level) := by
  refine (hprinting.printable.listAt_yields hkind hslot rfl rfl).bind fun parts hparts => ?_
  refine (Yields.mapM fun element hmem => ?_).bind fun _ hpieces =>
    (commaSeparated_yields hpieces).bind fun _ _ => .pure rfl
  refine .ite (fun _ => .pure rfl) fun hnull => ?_
  have helement := (hparts element hmem).given (Bool.eq_false_iff.2 hnull)
  exact hprinting.expression_yields helement hkinds

theorem keyedFunction_yields {keyword : String} {name : Value}
    (hpart : part.value.Printable (.one kinds))
    (hfunction : part.value.kind = .functionExpression) :
    YieldsText (printer.keyedFunction keyword name (some part) level) :=
  (hprinting.functionTailOf_yields hpart hfunction).bind fun _ _ => .pure rfl

theorem keyedValue_yields {name : Value} (hpart : part.value.Printable (.one kinds))
    (hkinds : kinds.all phrases.contains = true) :
    YieldsText (printer.keyedValue name (some part) level) :=
  (hprinting.expression_yields hpart hkinds).bind fun _ _ => .pure rfl

theorem shorthand_yields {name : Value} (hname : name.isText = true) {value : Part node}
    (hvalue : value.value.Printable (.one (expressions ++ targets))) :
    YieldsText (printer.shorthand part name (some value) level) := by
  have hkeyed : YieldsText
      (printer.keyedValue name (some value) level) :=
    hprinting.keyedValue_yields hvalue rfl
  refine .ite (fun _ => .ite (fun _ => .pure hname) fun _ => hkeyed) fun _ =>
    .ite (fun hkind => ?_) fun _ => hkeyed
  refine (Part.require_yields hvalue hkind rfl).bind fun _ htarget => ?_
  rw [htarget.asRecord]
  exact .ite (fun _ => hprinting.expression_yields hvalue rfl) fun _ => hkeyed

theorem propertyMethod_yields {name : Value} (hpart : part.value.Printable (.one kinds))
    (hfunction : part.value.kind = .functionExpression) :
    YieldsText (printer.propertyMethod name (some part) level) :=
  (Part.flag_yields hpart _).bind fun _ _ => (Part.flag_yields hpart _).bind fun _ _ =>
    hprinting.keyedFunction_yields hpart hfunction

theorem property_yields (hpart : part.value.Printable (.one kinds))
    (hkind : part.value.kind = .property) : YieldsText (printer.property part level) := by
  obtain ⟨_, hlookup, hheld⟩ := hpart.exists_field hkind
    (show Kind.slot .property "value" = .one (expressions ++ targets) from rfl) rfl
  obtain ⟨held, hfound, rfl⟩ := exists_part hlookup
  have hvalue : (part.within held).value.Printable (.one (expressions ++ targets)) := hheld
  have hfunction := hpart.function_of_isKeyed hkind rfl hlookup
  rw [isKeyedFunction] at hfunction
  refine (hprinting.propertyKey_yields hpart hkind rfl).bind fun name hname => ?_
  rw [hfound, Option.map_some]
  cases haccessor : part.value.accessor? with
  | some keyword => exact hprinting.keyedFunction_yields hvalue (hfunction (by rw [haccessor]; rfl))
  | none =>
    refine .ite (fun hmethod => ?_) fun _ => .ite (fun _ => ?_) fun _ => ?_
    · exact hprinting.propertyMethod_yields hvalue (hfunction (by rw [hmethod, Bool.or_true]))
    · exact hprinting.shorthand_yields hname hvalue
    · exact hprinting.keyedValue_yields hvalue rfl

theorem objectItem_yields (hpart : part.value.Printable (.one kinds))
    (hkinds : kinds.all (.property :: phrases).contains = true) :
    YieldsText (printer.objectItem part level) := by
  refine .ite (fun hproperty => hprinting.property_yields hpart hproperty) fun hproperty => ?_
  have hphrase := List.mem_of_ne_of_mem hproperty (mem_of_all hkinds hpart.kind_mem)
  exact hprinting.expression_yields (hpart.refit hphrase) rfl

theorem object_yields (hkind : node.kind = .objectExpression) :
    Yields Phrase.IsText (printer.object level) := by
  refine (hprinting.printable.listAt_yields hkind rfl rfl rfl).bind fun parts hparts => ?_
  refine .ite (fun _ => .pure rfl) fun _ => ?_
  refine (Yields.mapM_anything fun item hmem => ?_).bind fun _ _ => .pure rfl
  refine (hprinting.objectItem_yields (hparts item hmem) rfl).bind fun _ hitem => ?_
  exact (asAppended_yields hitem).bind fun _ _ => .anything

theorem objectPattern_yields (hkind : node.kind = .objectPattern) :
    Yields Phrase.IsText (printer.objectPattern level) := by
  refine (hprinting.printable.listAt_yields hkind rfl rfl rfl).bind fun parts hparts => ?_
  refine (Yields.mapM fun item hmem => hprinting.objectItem_yields (hparts item hmem) rfl).bind
    fun _ hpieces => ?_
  exact (commaSeparated_yields hpieces).bind fun _ _ => .pure rfl

theorem ownName_yields (hkind : node.kind = kind)
    (hslot : kind.slot "id" = .optional [.identifier] ∨ kind.slot "id" = .one [.identifier]) :
    Yields Anything printer.ownName := by
  rw [Printer.ownName]
  rcases hprinting.printable.id_cases hkind hslot with hnone | ⟨part, hpart, hname⟩
  · rw [hnone]
    exact .anything
  · rw [hpart]
    exact hname.bind fun _ hname => (asAppended_yields hname).bind fun _ _ => .anything

theorem function_yields
    (hkind : node.kind = .functionExpression ∨ node.kind = .functionDeclaration) :
    Yields Anything (printer.function level) := by
  have hid : node.kind.slot "id" = .optional [.identifier] ∨
      node.kind.slot "id" = .one [.identifier] := by
    rcases hkind with hkind | hkind
    · exact .inl (by rw [hkind]; rfl)
    · exact .inr (by rw [hkind]; rfl)
  have hparams : node.kind.slot "params" = .many targets :=
    Kind.slot_params (by rcases hkind with hkind | hkind <;> rw [hkind] <;> rfl)
  have hhead : Yields Anything printer.functionHead :=
    (hprinting.ownName_yields rfl hid).bind fun _ _ => .anything
  refine hhead.bind fun _ _ => ?_
  exact (hprinting.functionTail_yields (hprinting.printable.listAt_yields rfl hparams rfl rfl)
    (hprinting.printable.body_yields rfl hkind)).bind fun _ _ => .anything

theorem arrowFunction_yields (hkind : node.kind = .arrowFunctionExpression) :
    Yields Phrase.IsText (printer.arrowFunction level) := by
  refine (hprinting.printable.listAt_yields hkind rfl rfl rfl).bind fun parts hparts => ?_
  refine (hprinting.expressions_yield hparts rfl).bind fun _ hpieces => ?_
  refine (commaSeparated_yields hpieces).bind fun _ _ => ?_
  refine (hprinting.printable.require_yields hkind rfl).bind fun body hbody => ?_
  refine .ite (fun hblock => ?_) fun hblock => ?_
  · exact (hprinting.block_yields hbody hblock).bind fun _ _ => .pure rfl
  · have hphrase := List.mem_of_ne_of_mem hblock hbody.kind_mem
    refine (hprinting.expression_yields (hbody.refit hphrase) rfl).bind fun _ hvalue => ?_
    exact (asStarting_yields hvalue).bind fun _ _ => .pure rfl

theorem method_yields (hpart : part.value.Printable (.one [.methodDefinition])) :
    Yields Anything (printer.method part level) := by
  have hkind := List.mem_singleton.1 hpart.kind_mem
  refine .ite (fun hother => absurd hkind hother) fun _ => ?_
  refine (Part.require_yields hpart hkind rfl).bind fun function hfunction => ?_
  refine (Part.flag_yields hfunction _).bind fun _ _ => ?_
  refine (Part.flag_yields hfunction _).bind fun _ _ => ?_
  refine (hprinting.propertyKey_yields hpart hkind rfl).bind fun _ hname => ?_
  refine (asAppended_yields hname).bind fun _ _ => ?_
  exact (hprinting.functionTailOf_yields hfunction
    (List.mem_singleton.1 hfunction.kind_mem)).bind fun _ _ => .anything

theorem classAncestor_yields (hkind : node.kind = kind)
    (hslot : kind.slot "superClass" = .optional expressions) :
    Yields Anything (printer.classAncestor level) :=
  hprinting.given_yields hkind hslot .anything fun _ hancestor =>
    (hprinting.expression_yields hancestor rfl).bind fun _ hvalue =>
      (asAppended_yields hvalue).bind fun _ _ => .anything

theorem classText_yields (hkind : node.kind = kind)
    (hid : kind.slot "id" = .optional [.identifier] ∨ kind.slot "id" = .one [.identifier])
    (hancestor : kind.slot "superClass" = .optional expressions)
    (hbody : kind.slot "body" = .one [.classBody]) : Yields Anything (printer.classText level) := by
  refine (hprinting.ownName_yields hkind hid).bind fun _ _ => ?_
  refine (hprinting.classAncestor_yields hkind hancestor).bind fun _ _ => ?_
  refine (hprinting.printable.require_yields hkind hbody).bind fun body hbody => ?_
  refine (Part.listAt_yields hbody (List.mem_singleton.1 hbody.kind_mem) rfl).bind
    fun members hmembers => ?_
  refine .ite (fun _ => .anything) fun _ => ?_
  refine (Yields.mapM_anything fun member hmem => ?_).bind fun _ _ => .anything
  exact (hprinting.method_yields (hmembers member hmem)).bind fun _ _ => .anything

theorem unary_yields (hkind : node.kind = .unaryExpression) :
    Yields Phrase.IsText (printer.unary level) := by
  refine (hprinting.printable.operator_yields (by rw [hkind]; decide)).bind
    fun operator hoperator => ?_
  refine (hprinting.expressionAt_yields hkind rfl rfl).bind fun _ hargument => ?_
  obtain ⟨word, hword, hfilled⟩ := hoperator
  rw [hword]
  refine .ite (fun _ => .pure rfl) fun _ => ?_
  refine (asStarting_yields hargument).bind fun _ _ => ?_
  obtain ⟨sign, hsign⟩ := Option.ne_none_iff_exists'.1 (mt List.getLast?_eq_none_iff.1 hfilled)
  rw [hsign]
  exact .pure rfl

theorem update_yields (hkind : node.kind = .updateExpression) :
    Yields Phrase.IsText (printer.update level) := by
  refine (hprinting.printable.operator_yields (by rw [hkind]; decide)).bind
    fun operator hoperator => ?_
  refine (hprinting.expressionAt_yields hkind rfl rfl).bind fun _ hargument => ?_
  obtain ⟨word, hword, -⟩ := hoperator
  have htext : operator.value.isText = true := by rw [hword]; rfl
  exact .ite (fun _ => (add_yields htext hargument).bind fun _ hsum => .pure hsum)
    fun _ => (add_yields hargument htext).bind fun _ hsum => .pure hsum

theorem binary_yields (hkind : node.kind = .binaryExpression ∨ node.kind = .logicalExpression) :
    Yields Phrase.IsText (printer.binary level) := by
  have hslot : node.kind.slot "left" = .one expressions ∧
      node.kind.slot "right" = .one expressions := by
    rcases hkind with hkind | hkind <;> rw [hkind] <;> exact ⟨rfl, rfl⟩
  refine (hprinting.printable.operator_yields
    (by rcases hkind with hkind | hkind <;> rw [hkind] <;> decide)).bind
      fun operator hoperator => ?_
  obtain ⟨word, hword, -⟩ := hoperator
  rw [hword]
  refine (hprinting.expressionAt_yields rfl hslot.1 rfl).bind fun _ _ => ?_
  refine (hprinting.expressionAt_yields rfl hslot.2 rfl).bind fun _ _ => ?_
  exact .ite (fun _ => .pure rfl) fun _ => .pure rfl

theorem assignment_yields (hkind : node.kind = .assignmentExpression) :
    Yields Phrase.IsText (printer.assignment level) := by
  refine (hprinting.expressionAt_yields hkind rfl rfl).bind fun _ _ => ?_
  refine (hprinting.expressionAt_yields hkind rfl rfl).bind fun _ _ => ?_
  exact (hprinting.printable.operator_yields (by rw [hkind]; decide)).bind fun _ _ => .pure rfl

theorem assignmentPattern_yields (hkind : node.kind = .assignmentPattern) :
    Yields Phrase.IsText (printer.assignmentPattern level) := by
  refine (hprinting.expressionAt_yields hkind rfl rfl).bind fun _ _ => ?_
  exact (hprinting.expressionAt_yields hkind rfl rfl).bind fun _ _ => .pure rfl

theorem conditional_yields (hkind : node.kind = .conditionalExpression) :
    Yields Phrase.IsText (printer.conditional level) := by
  refine (hprinting.expressionAt_yields hkind rfl rfl).bind fun _ _ => ?_
  refine (hprinting.expressionAt_yields hkind rfl rfl).bind fun _ _ => ?_
  exact (hprinting.expressionAt_yields hkind rfl rfl).bind fun _ _ => .pure rfl

theorem literal_yields (hkind : node.kind = .literal) : Yields Phrase.IsText printer.literal := by
  have hdetail := hprinting.printable.hasDetail (by simp [hkind])
  simp only [Value.hasDetail, hkind, Bool.or_eq_true] at hdetail
  rw [Printer.literal]
  split
  · exact .pure rfl
  · next hraw =>
      rcases hdetail with hwritten | hspelled
      · obtain ⟨raw, hlookup, htext⟩ := (Option.any_eq_true _ _).1 hwritten
        obtain ⟨text, rfl⟩ := exists_text htext
        exact absurd hlookup (hraw text)
      · cases hvalue : (node.lookup "value").getD .null with
        | null | bool | text => exact .pure rfl
        | _ =>
          rw [hvalue] at hspelled
          cases hspelled

theorem arguments_yields (hkind : node.kind = kind)
    (hslot : kind.slot "arguments" = .many (.spreadElement :: expressions)) :
    Yields Anything (printer.arguments level) := by
  refine (hprinting.printable.listAt_yields hkind hslot rfl rfl).bind fun parts hparts => ?_
  refine (hprinting.expressions_yield hparts rfl).bind fun _ hpieces => ?_
  exact (commaSeparated_yields hpieces).bind fun _ _ => .anything

theorem call_yields (hkind : node.kind = .callExpression) :
    Yields Phrase.IsText (printer.call level) := by
  refine (hprinting.expressionAt_yields hkind rfl rfl).bind fun _ hcallee => ?_
  refine (hprinting.arguments_yields hkind rfl).bind fun _ _ => ?_
  exact (add_yields hcallee rfl).bind fun _ hsum => .pure hsum

theorem newCall_yields (hkind : node.kind = .newExpression) :
    Yields Phrase.IsText (printer.newCall level) := by
  refine (hprinting.printable.require_yields hkind rfl).bind fun callee hcallee => ?_
  have hprinted : Yields Anything (printer.newCallee callee level) := by
    refine (hprinting.expression_yields hcallee rfl).bind fun _ hcontent => ?_
    exact .ite (fun _ => (asStarting_yields hcontent).bind fun _ _ => .anything)
      fun _ => asAppended_yields hcontent
  refine hprinted.bind fun _ _ => ?_
  exact (hprinting.arguments_yields hkind rfl).bind fun _ _ => .pure rfl

theorem memberOwner_yields (hkind : node.kind = .memberExpression) :
    Yields Anything (printer.memberOwner level) := by
  refine (hprinting.printable.require_yields hkind rfl).bind fun _ howner => ?_
  exact (hprinting.expression_yields howner rfl).bind fun _ _ => .anything

/-- A property that is not computed is a name. -/
theorem member_yields (hkind : node.kind = .memberExpression) :
    Yields Phrase.IsText (printer.member level) := by
  refine (hprinting.memberOwner_yields hkind).bind fun _ _ => ?_
  refine .ite (fun _ => ?_) fun hcomputed => ?_
  · exact (hprinting.expressionAt_yields hkind rfl rfl).bind fun _ _ => .pure rfl
  · obtain ⟨_, hlookup, hproperty⟩ := hprinting.printable.exists_field hkind
      (show Kind.slot .memberExpression "property" = .one expressions from rfl) rfl
    obtain ⟨part, hpart, rfl⟩ := exists_part hlookup
    have hdetail := hprinting.printable.hasDetail (by simp [hkind])
    simp only [Value.hasDetail, hkind, hcomputed, hlookup, Bool.false_or, Option.any_some,
      beq_iff_eq] at hdetail
    rw [require_eq_ok_iff.2 hpart]
    exact (hproperty.name_yields hdetail).bind fun _ _ => .pure rfl

theorem sequence_yields (hkind : node.kind = .sequenceExpression) :
    Yields Phrase.IsText (printer.sequence level) := by
  refine (hprinting.printable.required_yields hkind rfl rfl).bind fun _ hlist => ?_
  refine (Part.elements_yields hlist).bind fun parts hparts => ?_
  refine (hprinting.expressions_yield hparts rfl).bind fun _ hpieces => ?_
  exact (commaSeparated_yields hpieces).bind fun _ _ => .pure rfl

theorem templatePiece_yields {index : Nat} {expressions? : Option (Part node)}
    (hexpressions : ∀ part ∈ expressions?, part.value.Printable (.many expressions))
    (hquasi : part.value.Printable (.one [.templateElement])) :
    Yields (fun pieces => ∀ piece ∈ pieces, piece.isText = true)
      (printer.templatePiece expressions? part index level) := by
  refine (Part.raw_yields hquasi (List.mem_singleton.1 hquasi.kind_mem)).bind
    fun _ hraw => hraw.bind fun raw htext => ?_
  have hsingle : ∀ piece ∈ [raw.value], piece.isText = true := List.forall_mem_singleton.2 htext
  cases expressions? with
  | none => exact .pure hsingle
  | some held =>
    refine (Part.item_yields (hexpressions held rfl)).bind fun _ hitems => ?_
    refine .ite (fun hindex => ?_) fun _ => .pure hsingle
    refine (hitems index hindex).bind fun _ hitem => ?_
    refine (hprinting.expression_yields hitem rfl).bind fun _ hcontent => ?_
    exact (asAppended_yields hcontent).bind fun _ _ =>
      .pure (List.forall_mem_cons.2 ⟨htext, List.forall_mem_singleton.2 rfl⟩)

theorem template_yields {quasis : Except Fault (List (Part node))}
    {expressions? : Option (Part node)}
    (hquasis : Yields (fun parts => ∀ part ∈ parts, part.value.Printable (.one [.templateElement]))
      quasis) (hexpressions : ∀ part ∈ expressions?, part.value.Printable (.many expressions)) :
    Yields Anything (printer.template quasis expressions? level) := by
  refine hquasis.bind fun parts hparts => ?_
  refine (Yields.mapM fun entry hentry => hprinting.templatePiece_yields hexpressions
    (hparts entry.1 (List.fst_mem_of_mem_zipIdx hentry))).bind
      fun pieces hpieces => joined_yields fun piece hpiece => ?_
  simp only [List.mem_append, List.mem_singleton, List.mem_flatten] at hpiece
  rcases hpiece with (rfl | ⟨held, hheld, hmem⟩) | rfl
  · rfl
  · exact hpieces held hheld piece hmem
  · rfl

theorem templateLiteral_yields (hkind : node.kind = .templateLiteral) :
    Yields Phrase.IsText (printer.templateLiteral level) := by
  have hexpressions : ∀ part ∈ (node.part? "expressions").filter fun part => part.value.isTruthy,
      part.value.Printable (.many expressions) := by
    intro part hpart
    have hfound := (Option.filter_eq_some_iff.1 hpart).1
    exact hprinting.printable.field hkind rfl Slot.noConfusion (lookup_of_part? hfound)
  exact (hprinting.template_yields (hprinting.printable.listAt_yields hkind rfl rfl rfl)
    hexpressions).bind fun _ _ => .pure rfl

theorem taggedTemplate_yields (hkind : node.kind = .taggedTemplateExpression) :
    Yields Phrase.IsText (printer.taggedTemplate level) := by
  refine (hprinting.expressionAt_yields hkind rfl rfl).bind fun _ htag => ?_
  refine (hprinting.printable.require_yields hkind rfl).bind fun quasi hquasi => ?_
  have hliteral := List.mem_singleton.1 hquasi.kind_mem
  have hexpressions : ∀ part ∈ ((quasi.value.part? "expressions").map quasi.within).filter
      fun part => part.value.isTruthy, part.value.Printable (.many expressions) := by
    intro part hpart
    obtain ⟨held, hheld, rfl⟩ := Option.map_eq_some_iff.1 (Option.filter_eq_some_iff.1 hpart).1
    exact hquasi.field hliteral rfl Slot.noConfusion (lookup_of_part? hheld)
  rw [hquasi.asRecord]
  refine (hprinting.template_yields (Part.listAt_yields hquasi hliteral rfl) hexpressions).bind
    fun _ _ => ?_
  exact (add_yields htag rfl).bind fun _ hsum => .pure hsum

theorem fronted_yields {front : String} (hkind : node.kind = kind)
    (hslot : kind.slot "argument" = .one kinds) (hkinds : kinds.all phrases.contains = true) :
    Yields Phrase.IsText (printer.fronted front strength level) := by
  refine (hprinting.expressionAt_yields hkind hslot hkinds).bind fun _ hvalue => ?_
  exact (asAppended_yields hvalue).bind fun _ _ => .pure rfl

theorem yieldText_yields (hkind : node.kind = .yieldExpression) :
    Yields Phrase.IsText (printer.yieldText level) :=
  hprinting.given_yields hkind rfl (.pure rfl) fun _ hargument =>
    (hprinting.expression_yields hargument rfl).bind fun _ hvalue =>
      (asAppended_yields hvalue).bind fun _ _ => .pure rfl

theorem metaProperty_yields (hkind : node.kind = .metaProperty) :
    Yields Phrase.IsText printer.metaProperty := by
  refine (hprinting.printable.require_yields hkind rfl).bind fun _ howner => ?_
  refine (howner.name_yields (List.mem_singleton.1 howner.kind_mem)).bind fun _ _ => ?_
  refine (hprinting.printable.require_yields hkind rfl).bind fun _ hproperty => ?_
  exact (hproperty.name_yields (List.mem_singleton.1 hproperty.kind_mem)).bind fun _ _ => .pure rfl

/-- Every kind of expression has a rule, and the rule gives a text. -/
theorem phrase?_yields (hkind : node.kind ∈ phrases) :
    ∃ step, printer.phrase? level = some step ∧ Yields Phrase.IsText step := by
  rw [Printer.phrase?]
  cases hnode : node.kind with
  | identifier => exact ⟨_, rfl, hprinting.identifier_yields hnode⟩
  | literal => exact ⟨_, rfl, hprinting.literal_yields hnode⟩
  | thisExpression | super => exact ⟨_, rfl, .pure rfl⟩
  | arrayExpression | arrayPattern => exact ⟨_, rfl, hprinting.array_yields hnode rfl rfl⟩
  | objectExpression => exact ⟨_, rfl, hprinting.object_yields hnode⟩
  | objectPattern => exact ⟨_, rfl, hprinting.objectPattern_yields hnode⟩
  | functionExpression =>
    exact ⟨_, rfl, (hprinting.function_yields (.inl hnode)).map fun _ _ => rfl⟩
  | arrowFunctionExpression => exact ⟨_, rfl, hprinting.arrowFunction_yields hnode⟩
  | classExpression =>
    exact ⟨_, rfl, (hprinting.classText_yields hnode (.inl rfl) rfl rfl).map fun _ _ => rfl⟩
  | unaryExpression => exact ⟨_, rfl, hprinting.unary_yields hnode⟩
  | updateExpression => exact ⟨_, rfl, hprinting.update_yields hnode⟩
  | binaryExpression => exact ⟨_, rfl, hprinting.binary_yields (.inl hnode)⟩
  | logicalExpression => exact ⟨_, rfl, hprinting.binary_yields (.inr hnode)⟩
  | assignmentExpression => exact ⟨_, rfl, hprinting.assignment_yields hnode⟩
  | assignmentPattern => exact ⟨_, rfl, hprinting.assignmentPattern_yields hnode⟩
  | conditionalExpression => exact ⟨_, rfl, hprinting.conditional_yields hnode⟩
  | callExpression => exact ⟨_, rfl, hprinting.call_yields hnode⟩
  | newExpression => exact ⟨_, rfl, hprinting.newCall_yields hnode⟩
  | memberExpression => exact ⟨_, rfl, hprinting.member_yields hnode⟩
  | sequenceExpression => exact ⟨_, rfl, hprinting.sequence_yields hnode⟩
  | templateLiteral => exact ⟨_, rfl, hprinting.templateLiteral_yields hnode⟩
  | taggedTemplateExpression => exact ⟨_, rfl, hprinting.taggedTemplate_yields hnode⟩
  | spreadElement | restElement | awaitExpression =>
    exact ⟨_, rfl, hprinting.fronted_yields hnode rfl rfl⟩
  | yieldExpression => exact ⟨_, rfl, hprinting.yieldText_yields hnode⟩
  | metaProperty => exact ⟨_, rfl, hprinting.metaProperty_yields hnode⟩
  | _ =>
    rw [hnode] at hkind
    exact absurd hkind (by decide)

end Printing

end Debundle
