import Debundle.Proofs.Script.Build
import Debundle.Proofs.Script.TotalStatement

/-!
# Printing returns

A script in full detail is printed as a text, whatever the style is.  A node is printed from
what its parts are printed as, so this is an induction on the size of the node, with one case
for each printing rule.
-/

namespace Debundle

open Attempt

namespace Kind

/-- The kinds of nodes that have a printing rule. -/
def printed : List Kind :=
  .program :: (statements ++ phrases)

end Kind

theorem Phrase.IsText.inPlace {phrase : Phrase} (htext : phrase.IsText) (strength : Nat) :
    (phrase.inPlace strength).isText = true := by
  rw [Phrase.inPlace]
  split
  · rfl
  · exact htext

namespace Printing

open Value Kind

variable {slot : Slot} {node : Value} {printer : Printer node} {level : Int}
  (hprinting : Printing slot printer)

include hprinting

theorem asExpression_yields {strength : Nat} (hkind : node.kind ∈ phrases) :
    YieldsText (printer.asExpression strength level) := by
  obtain ⟨step, hstep, hphrase⟩ := hprinting.phrase?_yields hkind
  rw [Printer.asExpression, hstep]
  exact hphrase.map fun _ htext => htext.inPlace strength

theorem asStatement_yields (hkind : node.kind ∈ .program :: statements) :
    Yields Anything (printer.asStatement level) := by
  obtain ⟨step, hstep, htext⟩ := hprinting.statement?_yields hkind
  rw [Printer.asStatement, hstep]
  exact htext

end Printing

/-- What is no statement is printed as an expression. -/
theorem Printer.statement?_eq_none {node : Value} (printer : Printer node) (level : Int)
    (hkind : node.kind ∈ Kind.phrases) : printer.statement? level = none := by
  rw [statement?]
  cases hnode : node.kind with
  | program | blockStatement | expressionStatement | emptyStatement | variableDeclaration
  | functionDeclaration | classDeclaration | returnStatement | ifStatement | forStatement
  | forInStatement | forOfStatement | whileStatement | doWhileStatement | breakStatement
  | continueStatement | throwStatement | tryStatement | switchStatement | labeledStatement
  | debuggerStatement | withStatement =>
    rw [hnode] at hkind
    exact absurd hkind (by decide)
  | _ => rfl

namespace Value

open Kind

theorem Printable.printing {slot : Slot} {value : Value} (hvalue : value.Printable slot)
    (style : Style) (noIn : Bool) : Printing slot (value.printerIn style noIn) := by
  induction hsize : value.size using Nat.strongRecOn generalizing value slot noIn with
  | ind size ih =>
    refine ⟨hvalue, fun part hpart noIn strength level => ?_, fun part hpart noIn level => ?_⟩
    · have hprinting := ih part.value.size (hsize ▸ part.smaller) hpart noIn rfl
      rw [show (value.printerIn style _).inner noIn part = _ from print_eq style noIn part.value]
      exact hprinting.asExpression_yields hpart.kind_mem
    · have hprinting := ih part.value.size (hsize ▸ part.smaller) hpart noIn rfl
      rw [show (value.printerIn style _).inner noIn part = _ from print_eq style noIn part.value]
      exact hprinting.asStatement_yields (List.mem_cons_of_mem _ hpart.kind_mem)

/-- A script in full detail, or a part of one that has a printing rule, is printed as a
text. -/
theorem script_returns_text {root : Value} (hfills : root.fills (.one printed) = true)
    (hdetailed : root.isDetailed = true) (style : Style) :
    ∃ text, root.script style = .ok (.text text) := by
  have hroot : root.Printable (.one printed) := ⟨hfills, hdetailed⟩
  have hprinting := hroot.printing style false
  have hscript : YieldsText (root.printerIn style false).standalone := by
    rw [Printer.standalone]
    have hkind : root.kind ∈ .program :: statements ∨ root.kind ∈ phrases := by
      rw [← List.mem_append]
      exact hroot.kind_mem
    rcases hkind with hstatement | hphrase
    · obtain ⟨step, hstep, htext⟩ := hprinting.statement?_yields hstatement
      rw [hstep]
      exact htext.map fun _ _ => rfl
    · rw [Printer.statement?_eq_none _ 0 hphrase]
      exact hprinting.asExpression_yields hphrase
  obtain ⟨content, hcontent, htext⟩ := hscript
  obtain ⟨text, rfl⟩ := exists_text htext
  exact ⟨text, hcontent⟩

/-- The class declaration `class C { get m() {} }`. -/
def getterClass : Value :=
  .node "ClassDeclaration"
    [("id", Build.name "C"),
      ("body", .node "ClassBody" [("body", .array [.node "MethodDefinition"
        [("key", Build.name "m"), ("value", Build.function [] []), ("kind", .text "get")]])])]

/-- A template with an expression between two pieces of text. -/
def greeting (content : Value) : Value :=
  .node "TemplateLiteral"
    [("quasis", .array (["hello ", "!"].map fun raw =>
        .node "TemplateElement" [("value", .mapping [("raw", .text raw)])])),
      ("expressions", .array [content])]

/-- The program
`class C { get m() {} }  try { throw -k; } catch { for (k in { a, b }) f("hello " + k); }`,
with a template for the text. -/
def assortedProgram : Value :=
  .node "Program" [("body", .array [getterClass,
    .node "TryStatement"
      [("block", Build.block [.node "ThrowStatement"
          [("argument", Build.unary "-" (Build.name "k"))]]),
        ("handler", .node "CatchClause" [("param", .null), ("body", Build.block
          [.node "ForInStatement"
            [("left", Build.name "k"), ("right", Build.shorthands ["a", "b"]),
              ("body", Build.perform
                (Build.call (Build.name "f") [greeting (Build.name "k")]))]])]),
        ("finalizer", .null)]])]

theorem script_returns_text_assorted :
    assortedProgram.fills (.one printed) = true ∧ assortedProgram.isDetailed = true ∧
      ∃ text, assortedProgram.script {} = .ok (.text text) := by
  have hfills : assortedProgram.fills (.one printed) = true := by decide +kernel
  have hdetailed : assortedProgram.isDetailed = true := by decide +kernel
  exact ⟨hfills, hdetailed, script_returns_text hfills hdetailed {}⟩

end Value

end Debundle
