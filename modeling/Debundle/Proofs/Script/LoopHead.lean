import Debundle.Proofs.Script.Generator
import Debundle.Proofs.Script.ReadingStatement

/-!
# The heads of loops

The first `in` in the head of a loop that stands outside of all brackets, and not between the
question mark and the colon of a conditional expression, is taken for the loop's own.

In the first clause of a `for` loop every operation with `in` is put in parentheses, however deep
it lies, so nothing there is taken for the loop's own `in`.  The left side of a `for`-`in` loop has
no such protection: it is read back unless an `in` shows on its surface, which can only be in an
initial value.
-/

namespace Debundle

open Attempt Lexer

namespace Lexer

/-- The number of question marks that wait for their colon, behind a sign. -/
def Sign.settle (asked : Nat) : Sign → Nat
  | .within => asked
  | .asks => asked + 1
  | .answers => asked - 1

/-- Whether there is an `in` that no question mark waits at. -/
def hasFree : Nat → List Sign → Bool
  | _, [] => false
  | asked, sign :: rest => decide (sign = .within ∧ asked = 0) || hasFree (sign.settle asked) rest

/-- Divides the head of a loop at the first `in` that can only be the loop's own. -/
def divideHead (stack : List Bracket) (asked : Nat) :
    List ScriptToken → Option (List ScriptToken × List ScriptToken)
  | [] => none
  | token :: rest =>
    if stack = [] ∧ token.sign? = some .within ∧ asked = 0 then some ([], rest)
    else
      (nest [] stack token.lexeme).bind fun next =>
        (divideHead next (if stack = [] then token.sign?.elim asked (Sign.settle asked) else asked)
          rest).map fun sides => (token :: sides.1, sides.2)

theorem hasFree_append (asked : Nat) (front back : List Sign) :
    hasFree asked (front ++ back) =
      (hasFree asked front || hasFree (front.foldl Sign.settle asked) back) := by
  induction front generalizing asked with
  | nil => rfl
  | cons sign front ih =>
    rw [List.cons_append, hasFree, hasFree, ih, List.foldl_cons, Bool.or_assoc]

theorem hasFree_eq_false {signs : List Sign} (hsigns : Sign.within ∉ signs) (asked : Nat) :
    hasFree asked signs = false := by
  induction signs generalizing asked with
  | nil => rfl
  | cons sign signs ih =>
    rw [List.mem_cons, not_or] at hsigns
    rw [hasFree, ih hsigns.2, decide_eq_false fun hfree => hsigns.1 hfree.1.symm]
    rfl

theorem falls_space (goal : Goal) : Falls goal [' '] [] goal anyChar :=
  .blank goal rfl

theorem Falls.wordSpace {goal after : Goal} (text : String) (hword : isWord text = true)
    (hpermits : goal.permits (.word text) after = true) :
    Falls goal (text.toList ++ [' ']) [⟨goal, .word text⟩] after anyChar := by
  have hfalls := (Falls.word hword hpermits).append (falls_space after) rfl
  rwa [List.append_nil] at hfalls

/-- The keyword of a loop, behind its left side. -/
theorem falls_in {goal : Goal} (hgoal : goal ≠ .property) :
    Falls goal " in ".toList [⟨goal, .word "in"⟩] .operand anyChar := by
  have hpermits : goal.permits (.word "in") .operand = true := by
    cases goal with
    | property => exact absurd rfl hgoal
    | operand | operator => decide
  exact (falls_space goal).append_any (.wordSpace "in" rfl hpermits)

section

variable {stack next : List Bracket} {front back : List ScriptToken} {asked : Nat}

/-- What shows of a token, and what is left to look at. -/
theorem hasFree_signsFrom_cons {token : ScriptToken}
    (hnest : nest [] stack token.lexeme = some next) (asked : Nat) :
    hasFree asked (signsFrom stack (token :: front)) =
      (decide (stack = [] ∧ token.sign? = some .within ∧ asked = 0) ||
        hasFree (if stack = [] then token.sign?.elim asked (Sign.settle asked) else asked)
          (signsFrom next front)) := by
  rw [signsFrom, hnest, Option.elim_some]
  by_cases hstack : stack = []
  · rw [if_pos hstack, if_pos hstack]
    cases hsign : token.sign? with
    | none => simp
    | some sign =>
      rw [Option.toList_some, List.singleton_append, hasFree, Option.elim_some]
      congr 1
      cases sign <;> simp [hstack]
  · simp [hstack]

/-- Tokens with matching brackets and no free `in` are passed over. -/
theorem divideHead_append (hrun : nested stack front = some next)
    (hfree : hasFree asked (signsFrom stack front) = false) :
    divideHead stack asked (front ++ back) =
      (divideHead next ((signsFrom stack front).foldl Sign.settle asked) back).map
        fun sides => (front ++ sides.1, sides.2) := by
  induction front generalizing stack asked with
  | nil =>
    cases hrun
    simp [signsFrom]
  | cons token front ih =>
    obtain ⟨between, hnest, hrest⟩ := nested_cons hrun
    rw [hasFree_signsFrom_cons hnest, Bool.or_eq_false_iff, decide_eq_false_iff_not] at hfree
    rw [List.cons_append, divideHead, if_neg hfree.1, hnest, Option.bind_some, ih hrest hfree.2,
      Option.map_map]
    have hsettled : (signsFrom stack (token :: front)).foldl Sign.settle asked =
        (signsFrom between front).foldl Sign.settle
          (if stack = [] then token.sign?.elim asked (Sign.settle asked) else asked) := by
      rw [signsFrom, hnest, Option.elim_some, List.foldl_append]
      by_cases hstack : stack = []
      · rw [if_pos hstack, if_pos hstack]
        cases token.sign? <;> rfl
      · rw [if_neg hstack, if_neg hstack]
        rfl
    rw [hsettled]
    rfl

/-- At a free `in` the head is divided too early. -/
theorem exists_divideHead (hrun : nested stack front = some next)
    (hfree : hasFree asked (signsFrom stack front) = true) (back : List ScriptToken) :
    ∃ sides, divideHead stack asked (front ++ back) = some sides ∧
      sides.1.length < front.length := by
  induction front generalizing stack asked with
  | nil => cases hfree
  | cons token front ih =>
    obtain ⟨between, hnest, hrest⟩ := nested_cons hrun
    rw [hasFree_signsFrom_cons hnest, Bool.or_eq_true, decide_eq_true_eq] at hfree
    rw [List.cons_append, divideHead, hnest, Option.bind_some]
    by_cases hown : stack = [] ∧ token.sign? = some .within ∧ asked = 0
    · exact ⟨_, if_pos hown, Nat.zero_lt_succ _⟩
    · obtain ⟨sides, hsides, hshorter⟩ := ih hrest (hfree.resolve_left hown)
      rw [if_neg hown, hsides]
      exact ⟨_, rfl, Nat.succ_lt_succ hshorter⟩

/-- The head is divided at the loop's own `in` exactly if there is no free one in front of it. -/
theorem divideHead_iff {signs : List Sign} {goal : Goal} (hfront : Outlines front signs)
    (hsettled : signs.foldl Sign.settle 0 = 0) (hgoal : goal ≠ .property)
    (back : List ScriptToken) :
    divideHead [] 0 (front ++ ⟨goal, .word "in"⟩ :: back) = some (front, back) ↔
      hasFree 0 signs = false := by
  obtain ⟨hclosed, rfl⟩ := hfront
  constructor
  · intro hsides
    by_contra hfree
    rw [Bool.not_eq_false] at hfree
    obtain ⟨sides, hfound, hshorter⟩ := exists_divideHead hclosed hfree (⟨goal, .word "in"⟩ :: back)
    cases hsides.symm.trans hfound
    exact Nat.lt_irrefl _ hshorter
  · intro hfree
    have hown : ScriptToken.sign? ⟨goal, .word "in"⟩ = some .within := by
      rw [ScriptToken.sign?, if_pos rfl, if_neg hgoal]
    rw [divideHead_append hclosed hfree, hsettled, divideHead, if_pos ⟨rfl, hown, rfl⟩,
      Option.map_some, List.append_nil]

end

end Lexer

namespace Value

open Kind

variable {style : Style} {noIn : Bool}

theorem KeptBySurfaces.declaratorSigns {holds : List Sign → Prop}
    (hkept : KeptBySurfaces noIn holds) (style : Style) (level : Int) (declarator : Value) :
    holds (declarator.declaratorSigns style noIn level) :=
  hkept.append _ _ (hkept.signsAt style level declarator _ _)
    (hkept.signsAt style level declarator _ _)

theorem KeptBySurfaces.clauseSigns {holds : List Sign → Prop} (hkept : KeptBySurfaces noIn holds)
    (style : Style) (level : Int) (clause : Value) :
    holds (clause.clauseSigns style noIn level) := by
  rw [Value.clauseSigns]
  split
  · exact hkept.flatten fun part _ => hkept.declaratorSigns style level part.value
  · exact hkept.surface style level clause

/-- Every question mark on a surface has its colon there. -/
theorem keptBySurfaces_settle (noIn : Bool) :
    KeptBySurfaces noIn fun signs => ∀ asked, signs.foldl Sign.settle asked = asked := by
  refine ⟨fun _ => rfl, fun front back hfront hback asked => ?_, fun signs hsigns asked => ?_,
    fun _ _ => rfl⟩
  · rw [List.foldl_append, hfront, hback]
  · rw [List.cons_append, List.foldl_cons, List.foldl_append, hsigns]
    rfl

/-- In the first clause of a loop no `in` shows. -/
theorem within_notMem_clauseSigns (style : Style) (level : Int) (clause : Value) :
    Sign.within ∉ clause.clauseSigns style true level := by
  have hkept : KeptBySurfaces true fun signs => Sign.within ∉ signs := by
    refine ⟨List.not_mem_nil, fun front back hfront hback => ?_, fun signs hsigns => ?_,
      fun hfalse => Bool.noConfusion hfalse⟩
    · rw [List.mem_append]
      exact not_or.2 ⟨hfront, hback⟩
    · simpa using hsigns
  exact hkept.clauseSigns style level clause

/-! ### The first clause of a `for` loop -/

/-- How a value is printed where every operation with `in` is put in parentheses, however deep it
lies. -/
def guarded (style : Style) (value : Value) : Rendition :=
  let printer : Printer value :=
    { style, noIn := true, inner := fun _ part => part.value.guarded style }
  printer.rendition
termination_by value.size
decreasing_by exact part.smaller

/-- The printer of a value whose parts are all guarded. -/
def guardedPrinter (style : Style) (value : Value) : Printer value where
  style := style
  noIn := true
  inner := fun _ part => part.value.guarded style

theorem guarded_eq (style : Style) (value : Value) :
    value.guarded style = (value.guardedPrinter style).rendition := by
  rw [guarded]
  rfl

/-- Where the flag is up, no rule asks how a part is printed with the flag down. -/
theorem rendition_raised {value : Value} (style : Style) (inner : Bool → Part value → Rendition) :
    (⟨style, true, inner⟩ : Printer value).rendition =
      (⟨style, true, fun _ => inner true⟩ : Printer value).rendition :=
  rfl

/-- Once the flag is up, it is up in everything inside, further loops included. -/
theorem print_raised (style : Style) (value : Value) :
    value.print style true = value.guarded style := by
  induction hsize : value.size using Nat.strongRecOn generalizing value with
  | ind size ih =>
    have hinner : (fun part : Part value => part.value.print style true) =
        fun part => part.value.guarded style := by
      funext part
      exact ih part.value.size (hsize ▸ part.smaller) part.value rfl
    rw [print_eq, guarded_eq, guardedPrinter, ← hinner]
    exact rendition_raised style fun noIn part => part.value.print style noIn

theorem loopClause_raised (style : Style) {value : Value} (part? : Option (Part value))
    (level : Int) :
    (value.printerIn style true).loopClause part? level =
      (value.guardedPrinter style).loopClause part? level := by
  have hinner : (fun part : Part value => part.value.print style true) =
      fun part => part.value.guarded style := by
    funext part
    exact part.value.print_raised style
  rw [guardedPrinter, ← hinner]
  rfl

end Value

namespace Printer

variable {node : Value}

/-- An operation with `in`, in parentheses of its own. -/
def enclosedWithin (printer : Printer node) (level : Int) : Except Fault Phrase := do
  let left ← printer.expressionAt "left" Precedence.relational level
  let right ← printer.expressionAt "right" (Precedence.relational + 1) level
  return .ofText (parenthesized (left.display ++ " in " ++ right.display)) Precedence.primary

/-- The text of a `for` loop, from what its first clause is printed as. -/
def forTextFrom (printer : Printer node) (init : Except Fault Value) (level : Int) :
    Except Fault String := do
  let init ← init
  let test ← printer.loopClause (node.part? "test") level
  let update ← printer.loopClause (node.part? "update") level
  let head := "for " ++ parenthesized
    (init.display ++ ";" ++ (← afterSemicolon test) ++ ";" ++ (← afterSemicolon update))
  return head ++ (← printer.substatement (← node.require "body") level)

end Printer

namespace Value

open Kind

theorem phrase?_guarded {operation : Value} (style : Style)
    (hkind : operation.kind = .binaryExpression)
    (hword : operation.textAt? "operator" = some "in") (level : Int) :
    (operation.guardedPrinter style).phrase? level =
      some ((operation.guardedPrinter style).enclosedWithin level) := by
  obtain ⟨part, hpart, hvalue⟩ := require_of_lookup (lookup_of_textAt? hword)
  rw [Printer.enclosedWithin, show " in " = " " ++ "in" ++ " " from rfl]
  rw [Printer.phrase?_of_kind hkind rfl]
  simp only [Printer.binary, hpart, ok_bind, hvalue,
    asKey_text, display_text, ← String.append_assoc]
  rfl

theorem statement_eq {style : Style} {noIn : Bool} {node : Value} {level : Int}
    {step : Except Fault String}
    (hstep : (node.printerIn style noIn).statement? level = some step) :
    (node.print style noIn).statement level = step := by
  rw [print_eq]
  simp only [Printer.rendition, Printer.asStatement, hstep]

/-- The first clause of a `for` loop falls into tokens with the signs that the tree tells on their
surface, and no `in` is among these. -/
theorem exists_first_clause {style : Style} {loop : Value}
    (hindent : style.indent.toList.all isBlank = true)
    (hinit : ∀ init, loop.lookup "init" = some init →
      init.Legible (.optional (.variableDeclaration :: expressions)) false) (level : Int) :
    ∃ text tokens,
      (loop.guardedPrinter style).loopClause (loop.part? "init") level = .ok (.text text) ∧
        FallsInto .operand text.toList tokens ∧ Closed [] (tokens.map ScriptToken.lexeme) ∧
        signsFrom [] tokens =
          ((loop.given? "init").elim [] fun init => init.value.clauseSigns style true level) ∧
        Sign.within ∉ signsFrom [] tokens := by
  rw [← loopClause_raised, given?]
  cases hpart : loop.part? "init" with
  | none => exact ⟨"", [], rfl, .done _, .nil [], rfl, List.not_mem_nil⟩
  | some part =>
    have hlegible := hinit part.value (lookup_of_part? hpart)
    rw [Option.filter_some]
    cases hnull : part.value.isNull with
    | true =>
      rw [Printer.loopClause, hnull]
      exact ⟨"", [], rfl, .done _, .nil [], rfl, List.not_mem_nil⟩
    | false =>
      obtain ⟨_, hprints, text, after, rfl, -, tokens, hfalls, hclosed, hsigns⟩ :=
        (partsRead hindent true loop).loopClause_reads (hlegible.given hnull) rfl
      refine ⟨text, tokens, hprints, hfalls.fallsInto, hclosed, hsigns, ?_⟩
      rw [hsigns]
      exact within_notMem_clauseSigns style level part.value

/-- The first clause of a `for` loop is printed with every operation with `in` in parentheses of
its own, at any depth, and if it is made of lexemes it falls into tokens that show what the tree
tells on their surface, and no `in`.  The rest of the loop is printed as if the flag had never been
up, and so is everything behind the loop: a generator that sets the flag for the clause leaves it as
it was. -/
theorem first_clause_guards_in (style : Style) (noIn : Bool) {loop : Value}
    (hkind : loop.kind = .forStatement) (level : Int) :
    (loop.print style noIn).statement level =
        (loop.printerIn style noIn).forTextFrom
          ((loop.guardedPrinter style).loopClause (loop.part? "init") level) level ∧
      (∀ operation : Value, operation.kind = .binaryExpression →
        operation.textAt? "operator" = some "in" → ∀ place,
          (operation.guardedPrinter style).phrase? place =
            some ((operation.guardedPrinter style).enclosedWithin place)) ∧
      (style.indent.toList.all isBlank = true →
        (∀ init, loop.lookup "init" = some init →
          init.Legible (.optional (.variableDeclaration :: expressions)) false) →
        ∃ text tokens,
          (loop.guardedPrinter style).loopClause (loop.part? "init") level = .ok (.text text) ∧
            FallsInto .operand text.toList tokens ∧ Closed [] (tokens.map ScriptToken.lexeme) ∧
            signsFrom [] tokens =
              ((loop.given? "init").elim [] fun init => init.value.clauseSigns style true level) ∧
            Sign.within ∉ signsFrom [] tokens) ∧
      Procedure.outcome ((loop.rendering style).statement level) noIn =
        ((loop.print style noIn).statement level, noIn) ∧
      ∀ text, (loop.print style noIn).statement level = .ok text → ∀ (later : Value) (place : Int),
        Procedure.outcome ((loop.rendering style).statement level >>= fun _ =>
            (later.rendering style).statement place) noIn =
          ((later.print style noIn).statement place, noIn) := by
  have hkeeps := (loop.rendering_yields style).statement level noIn
  refine ⟨?_, fun operation hoperation hword place => phrase?_guarded style hoperation hword place,
    fun hindent hinit => exists_first_clause hindent hinit level, hkeeps,
    fun text htext later place => ?_⟩
  · have hrule : (loop.printerIn style noIn).statement? level =
        some ((loop.printerIn style noIn).forText level) := Printer.statement?_of_kind hkind rfl
    rw [statement_eq hrule, ← loopClause_raised]
    rfl
  · rw [htext] at hkeeps
    rw [Procedure.outcome_bind_of_ok hkeeps]
    exact (later.rendering_yields style).statement place noIn

/-- The loop `for (var x = (a in b); x;) {}`. -/
def guardedLoop : Value :=
  .node "ForStatement"
    [("init", Build.declare (Build.name "x")
        (Build.binary "in" (Build.name "a") (Build.name "b"))),
      ("test", Build.name "x"), ("update", .null), ("body", Build.block [])]

theorem first_clause_guards_in_membership :
    guardedLoop.kind = .forStatement ∧
      (guardedLoop.guardedPrinter {}).loopClause (guardedLoop.part? "init") 0 =
        .ok (.text "var x = (a in b)") ∧
      ∃ tokens, FallsInto .operand "var x = (a in b)".toList tokens ∧
        Closed [] (tokens.map ScriptToken.lexeme) ∧
        signsFrom [] tokens = ((guardedLoop.given? "init").elim [] fun init =>
          init.value.clauseSigns {} true 0) ∧
        Sign.within ∉ signsFrom [] tokens := by
  have hprints : (guardedLoop.guardedPrinter {}).loopClause (guardedLoop.part? "init") 0 =
      .ok (.text "var x = (a in b)") := by decide +kernel
  obtain ⟨text, tokens, htext, htokens⟩ :=
    (first_clause_guards_in {} false (show guardedLoop.kind = .forStatement from rfl) 0).2.2.1
      rfl fun init hinit => by
        cases hinit
        exact ⟨⟨by decide +kernel, by decide +kernel⟩, by decide +kernel⟩
  cases hprints.symm.trans htext
  exact ⟨rfl, hprints, tokens, htokens⟩

/-! ### The head of a `for`-`in` loop -/

/-- A target that shows nothing on the surface. -/
def isBareTarget (target : Value) : Bool :=
  [Kind.identifier, .memberExpression, .arrayPattern, .objectPattern].contains target.kind

/-- A target, or a declaration of targets without initial values. -/
def isBareClause (clause : Value) : Bool :=
  if clause.kind = .variableDeclaration then
    ((clause.listAt "declarations").toOption.getD []).all fun part =>
      (part.value.part? "id").all (fun target => target.value.isBareTarget) &&
        (part.value.given? "init").isNone
  else clause.isBareTarget

theorem surface_of_isBareTarget {target : Value} (hbare : target.isBareTarget = true)
    (style : Style) (noIn : Bool) (level : Int) : target.surface style noIn level = .bare := by
  rw [surface_eq, surfaceBy]
  rw [isBareTarget, List.contains_iff_mem] at hbare
  cases hkind : target.kind with
  | binaryExpression | logicalExpression | sequenceExpression | assignmentExpression
  | assignmentPattern | conditionalExpression | arrowFunctionExpression | spreadElement
  | restElement | yieldExpression =>
    rw [hkind] at hbare
    exact absurd hbare (by decide)
  | _ => rfl

theorem clauseSigns_of_isBareClause {clause : Value} (hbare : clause.isBareClause = true)
    (style : Style) (noIn : Bool) (level : Int) : clause.clauseSigns style noIn level = [] := by
  rw [isBareClause] at hbare
  rw [clauseSigns]
  split
  · rename_i hdeclares
    rw [if_pos hdeclares, List.all_eq_true] at hbare
    rw [List.flatten_eq_nil_iff, List.forall_mem_map]
    intro part hpart
    obtain ⟨hid, hinit⟩ := Bool.and_eq_true_iff.1 (hbare part hpart)
    rw [declaratorSigns, signsAt_of_given?_eq_none (Option.isNone_iff_eq_none.1 hinit),
      List.append_nil]
    cases hfound : part.value.part? "id" with
    | none => exact signsAt_of_part?_eq_none hfound _
    | some target =>
      rw [hfound, Option.all_some] at hid
      rw [signsAt_of_part hfound, surface_of_isBareTarget hid]
      rfl
  · rename_i hdeclares
    rw [if_neg hdeclares] at hbare
    rw [surface_of_isBareTarget hbare]
    rfl

/-- An operation with `in`. -/
def isMembership (value : Value) : Bool :=
  value.kind == .binaryExpression && value.textAt? "operator" == some "in"

/-- A declaration with an initial value that is an operation with `in`. -/
def declaresMembership (clause : Value) : Bool :=
  clause.kind == .variableDeclaration &&
    ((clause.listAt "declarations").toOption.getD []).any fun part =>
      (part.value.part? "init").any fun init => init.value.isMembership

/-- The `in` of an operation is on the surface where the flag is down. -/
theorem exists_surface_of_isMembership {value : Value} (hwithin : value.isMembership = true)
    (style : Style) (level : Int) :
    ∃ front back, (value.surface style false level).inPlace Precedence.assignment =
        front ++ .within :: back ∧ ∀ asked, front.foldl Sign.settle asked = asked := by
  obtain ⟨hkind, hword⟩ := Bool.and_eq_true_iff.1 hwithin
  have hsurface : value.surface style false level =
      ⟨value.signsAt style false level "left" Precedence.relational ++ [.within] ++
        value.signsAt style false level "right" (Precedence.relational + 1),
        Precedence.relational⟩ := by
    rw [surface_eq, surfaceBy, beq_iff_eq.1 hkind]
    simp only [beq_iff_eq.1 hword]
    rfl
  refine ⟨_, value.signsAt style false level "right" (Precedence.relational + 1), ?_,
    (keptBySurfaces_settle false).signsAt style level value "left" Precedence.relational⟩
  have hbinds : ¬ Precedence.relational < Precedence.assignment := by decide
  rw [hsurface, Surface.inPlace, if_neg hbinds, List.append_assoc]
  rfl

theorem hasFree_of_declaresMembership {clause : Value}
    (hdeclares : clause.declaresMembership = true) (style : Style) (level : Int) :
    hasFree 0 (clause.clauseSigns style false level) = true := by
  obtain ⟨hkind, hany⟩ := Bool.and_eq_true_iff.1 hdeclares
  obtain ⟨part, hpart, hinit⟩ := List.any_eq_true.1 hany
  obtain ⟨init, hfound, hwithin⟩ := (Option.any_eq_true _ _).1 hinit
  obtain ⟨before, after, hsplit⟩ := List.append_of_mem hpart
  obtain ⟨front, back, hsigns, hsettled⟩ := exists_surface_of_isMembership hwithin style level
  have hkept := keptBySurfaces_settle false
  have hbefore : ∀ asked, (before.map fun part => part.value.declaratorSigns style false level
      ).flatten.foldl Sign.settle asked = asked :=
    hkept.flatten fun part _ => hkept.declaratorSigns style level part.value
  have hid := hkept.signsAt style level part.value "id" Precedence.assignment
  rw [clauseSigns, if_pos (beq_iff_eq.1 hkind), hsplit, List.map_append, List.map_cons,
    List.flatten_append, List.flatten_cons, declaratorSigns, signsAt_of_part hfound, hsigns,
    hasFree_append, hbefore, List.append_assoc, List.append_assoc, hasFree_append, hid,
    hasFree_append, hsettled]
  simp [hasFree]

theorem forEach_eq {node : Value} {printer : Printer node} {first second : Part node}
    {left right : String} {strength : Nat} {level : Int} (keyword : String)
    (hfirst : node.part? "left" = some first) (hsecond : node.part? "right" = some second)
    (hleft : printer.loopClause (some first) level = .ok (.text left))
    (hright : printer.expression second strength level = .ok (.text right)) :
    printer.forEach keyword strength level =
      ((node.require "body").bind fun body => printer.substatement body level).map
        ("for " ++ parenthesized (left ++ " " ++ keyword ++ " " ++ right) ++ ·) := by
  rw [Printer.forEach, require_eq_ok_iff.2 hfirst, ok_bind, hleft, ok_bind, Printer.expressionAt,
    require_eq_ok_iff.2 hsecond, ok_bind, hright, ok_bind]
  cases node.require "body" with
  | error fault => rfl
  | ok body =>
    change (printer.substatement body level).bind _ = (printer.substatement body level).map _
    cases printer.substatement body level <;> rfl

/-- The two sides of the head of a `for`-`in` loop fall into tokens that show what the trees tell on
their surface.  The head is divided into these two sides exactly if no free `in` shows on the left
side.  That is so for targets and for declarations without initial values, and wherever the flag is
up; it is not so where an initial value is an operation with `in`. -/
theorem for_in_head_divides_iff (style : Style) (noIn : Bool) {loop left right : Value}
    (hkind : loop.kind = .forInStatement) (hindent : style.indent.toList.all isBlank = true)
    (hleft : loop.lookup "left" = some left) (hright : loop.lookup "right" = some right)
    (hclause : left.Legible (.one (.variableDeclaration :: targets)) false)
    (hsubject : right.Legible (.one expressions) false) (level : Int) :
    ∃ first second front back goal,
      (loop.print style noIn).statement level =
          ((loop.require "body").bind fun body =>
            (loop.printerIn style noIn).substatement body level).map
              ("for " ++ parenthesized (first ++ " in " ++ second) ++ ·) ∧
        (loop.printerIn style noIn).loopClause (loop.part? "left") level = .ok (.text first) ∧
        (right.print style noIn).expression Precedence.sequence level = .ok (.text second) ∧
        FallsInto .operand first.toList front ∧ FallsInto .operand second.toList back ∧
        Outlines front (left.clauseSigns style noIn level) ∧
        Outlines back ((right.surface style noIn level).inPlace Precedence.sequence) ∧
        FallsInto .operand (first ++ " in " ++ second).toList
          (front ++ ⟨goal, .word "in"⟩ :: back) ∧
        (divideHead [] 0 (front ++ ⟨goal, .word "in"⟩ :: back) = some (front, back) ↔
          hasFree 0 (left.clauseSigns style noIn level) = false) ∧
        (noIn = true ∨ left.isBareClause = true →
          divideHead [] 0 (front ++ ⟨goal, .word "in"⟩ :: back) = some (front, back)) ∧
        (noIn = false → left.declaresMembership = true →
          divideHead [] 0 (front ++ ⟨goal, .word "in"⟩ :: back) ≠ some (front, back)) := by
  have hparts := partsRead hindent noIn loop
  obtain ⟨clause, hclausePart, rfl⟩ := exists_part hleft
  obtain ⟨subject, hsubjectPart, rfl⟩ := exists_part hright
  obtain ⟨_, hfirst, first, goal, rfl, hgoal, front, hfront, houtlines⟩ :=
    hparts.loopClause_reads hclause rfl
  obtain ⟨_, hsecond, second, rfl, hworded⟩ := hparts.expression_reads hsubject rfl
  obtain ⟨back, hback, hshown⟩ := hworded.loose
  have hown := falls_in hgoal
  have hiff := divideHead_iff houtlines
    ((keptBySurfaces_settle noIn).clauseSigns style level clause.value 0) hgoal back
  refine ⟨first, second, front, back, goal, ?_, ?_, hsecond, hfront.fallsInto, hback.fallsInto,
    houtlines, hshown, ?_, hiff, fun hsafe => hiff.2 ?_, fun hflag hdeclares hdivides => ?_⟩
  · have hrule : (loop.printerIn style noIn).statement? level =
        some ((loop.printerIn style noIn).forEach "in" Precedence.sequence level) :=
      Printer.statement?_of_kind hkind rfl
    rw [statement_eq hrule, forEach_eq "in" hclausePart hsubjectPart hfirst hsecond]
    simp only [show " in " = " " ++ "in" ++ " " from rfl, String.append_assoc]
  · rw [hclausePart]
    exact hfirst
  · rw [String.toList_append, String.toList_append]
    have hhead := (hfront.append hown rfl).append_any hback
    rw [List.append_assoc front] at hhead
    exact hhead.fallsInto
  · rcases hsafe with rfl | hbare
    · exact hasFree_eq_false (within_notMem_clauseSigns style level clause.value) 0
    · rw [clauseSigns_of_isBareClause hbare]
      rfl
  · subst hflag
    have hfree := hiff.1 hdivides
    rw [hasFree_of_declaresMembership hdeclares] at hfree
    cases hfree

/-- The loop `for (var k in o) {}`. -/
def keysLoop : Value :=
  .node "ForInStatement"
    [("left", .node "VariableDeclaration"
        [("kind", .text "var"), ("declarations", .array [.node "VariableDeclarator"
          [("id", Build.name "k"), ("init", .null)]])]),
      ("right", Build.name "o"), ("body", Build.block [])]

theorem for_in_head_divides_iff_keys :
    keysLoop.kind = .forInStatement ∧
      ∃ front back goal,
        FallsInto .operand "var k".toList front ∧ FallsInto .operand "o".toList back ∧
          FallsInto .operand "var k in o".toList (front ++ ⟨goal, .word "in"⟩ :: back) ∧
          divideHead [] 0 (front ++ ⟨goal, .word "in"⟩ :: back) = some (front, back) := by
  have hclause : (keysLoop.printerIn {} false).loopClause (keysLoop.part? "left") 0 =
      .ok (.text "var k") := by decide +kernel
  have hsubject : ((Build.name "o").print {} false).expression Precedence.sequence 0 =
      .ok (.text "o") := by decide +kernel
  obtain ⟨first, second, front, back, goal, -, hfirst, hsecond, hleft, hright, -, -, hfalls, -,
      hdivides, -⟩ :=
    for_in_head_divides_iff {} false (show keysLoop.kind = .forInStatement from rfl) rfl
      rfl rfl
      ⟨⟨by decide +kernel, by decide +kernel⟩, by decide +kernel⟩
      ⟨⟨by decide +kernel, by decide +kernel⟩, by decide +kernel⟩ 0
  cases hclause.symm.trans hfirst
  cases hsubject.symm.trans hsecond
  exact ⟨rfl, front, back, goal, hleft, hright, hfalls, hdivides (.inr (by decide +kernel))⟩

/-- The loop `for (var x = (a in b) in c) {}`. -/
def lostLoop : Value :=
  .node "ForInStatement"
    [("left", Build.declare (Build.name "x")
        (Build.binary "in" (Build.name "a") (Build.name "b"))),
      ("right", Build.name "c"), ("body", Build.block [])]

def lostHead : List ScriptToken :=
  [⟨.operand, .word "var"⟩, ⟨.operand, .word "x"⟩, ⟨.operator, .mark "="⟩, ⟨.operand, .word "a"⟩,
    ⟨.operator, .word "in"⟩, ⟨.operand, .word "b"⟩, ⟨.operator, .word "in"⟩, ⟨.operand, .word "c"⟩]

theorem for_in_head_divided_early :
    (lostLoop.print {} false).statement 0 = .ok "for (var x = a in b in c) {}" ∧
      (lostLoop.printerIn {} false).loopClause (lostLoop.part? "left") 0 =
        .ok (.text "var x = a in b") ∧
      FallsInto .operand "var x = a in b in c".toList lostHead ∧
      divideHead [] 0 lostHead = some (lostHead.take 4, lostHead.drop 5) := by
  have hvar : Falls .operand "var ".toList [⟨.operand, .word "var"⟩] .operand anyChar :=
    .wordSpace "var" (by decide) (by decide)
  have hname : Falls .operand "x ".toList [⟨.operand, .word "x"⟩] .operator anyChar :=
    .wordSpace "x" (by decide) (by decide)
  have hmark : Falls .operator "=".toList [⟨.operator, .mark "="⟩] .operand (markStops "=") :=
    .mark (by decide) (by decide) (by decide) (by decide)
  have hequals : Falls .operator "= ".toList [⟨.operator, .mark "="⟩] .operand anyChar :=
    hmark.append (falls_space .operand) (by decide)
  have hoperand : ∀ text ∈ ["a", "b", "c"],
      Falls .operand text.toList [⟨.operand, .word text⟩] .operator isWordEnd := by
    intro text htext
    have hwords : ∀ text ∈ ["a", "b", "c"], isWord text = true ∧
        Goal.permits .operand (.word text) .operator = true := by decide
    exact .word (hwords text htext).1 (hwords text htext).2
  have hin := falls_in (show Goal.operator ≠ .property by decide)
  have hhead := hvar.append_any (hname.append_any (hequals.append_any
    ((hoperand "a" (by decide)).append (hin.append_any
      ((hoperand "b" (by decide)).append (hin.append_any (hoperand "c" (by decide)))
        (by decide))) (by decide))))
  exact ⟨by decide +kernel, by decide +kernel, hhead.fallsInto, by decide⟩

end Value

end Debundle
