import Debundle.Proofs.Script.Build
import Debundle.Proofs.Script.ReadBack
import Debundle.Proofs.Script.Reader

/-!
# Printed expressions are read back

The text that a tree of an operator expression is printed as falls into lexemes from which
the grammar derives that expression, and no other.

The induction goes over the tree.  An expression that binds less tightly than its place
asks for stands in parentheses, so the strength that a place asks for is also the level at
which the grammar derives what stands there.
-/

namespace Debundle

open Operator Lexer

/-- What may follow an expression in a place that asks for a strength. -/
def followers (strength : Nat) (text : String) : Char → Bool :=
  if 16 ≤ strength then endsBefore text else closes

/-- What a node is printed as, in a place that asks for a strength, is read back. -/
structure Rendered (expr : Expr) (node : Value) (strength : Nat) (text : String) : Prop where
  reads : ReadsBack expr (min strength 16) (followers strength text) text
  /-- Only a number is printed as digits and nothing else. -/
  digits : text.toList.all Char.isDigit = true → node.isNumeric = true

/-- What binds at least as tightly as a call. -/
def Expr.isTight : Expr → Bool
  | .name _ | .self | .literal _ | .array _ | .member .. | .index .. | .call .. => true
  | _ => false

/-- The phrase of a node is the same text everywhere, and is read back at its own strength. -/
def Phrased (style : Style) (expr : Expr) (node : Value) : Prop :=
  ∃ text strength, (∀ level, node.Shows style level text strength) ∧
    Rendered expr node strength text ∧ (16 ≤ strength ↔ expr.isTight = true)

variable {strength : Nat} {text : String} {expr : Expr} {node : Value}

theorem closes_of_followers {char : Char} (hcloses : closes char = true) :
    followers strength text char = true := by
  unfold followers
  split
  · exact endsBefore_of_closes hcloses
  · exact hcloses

theorem not_all_digits (char : Char) (hmem : char ∈ text.toList) (hchar : char.isDigit = false) :
    ¬ text.toList.all Char.isDigit = true := by
  intro hall
  rw [List.all_eq_true.1 hall char hmem] at hchar
  cases hchar

/-- The digits of a number are digits of Unicode. -/
theorem spells_digits (hstarts : startsOperand text = true)
    (hall : text.toList.all Char.isDigit = true) : CharSet.digits.spells text = true := by
  obtain ⟨char, rest, htext, -⟩ := startsOperand_iff.1 hstarts
  have hsome : text.isEmpty = false := by
    rw [← Bool.not_eq_true, String.isEmpty_iff]
    rintro rfl
    cases htext
  have hdigits : text.toList.all CharSet.digits.contains = true := by
    rw [List.all_eq_true] at hall ⊢
    intro digit hmem
    have hbounds := Char.isDigit_iff_toNat.1 (hall digit hmem)
    exact List.any_eq_true.2 ⟨(48, 57), List.mem_cons_self, by simpa using hbounds⟩
  rw [CharSet.spells, hsome, hdigits]
  rfl

namespace Rendered

variable {expr : Expr} {node : Value} {strength : Nat} {text : String}

/-- The same text in a place that asks for less. -/
theorem lower {low : Nat} (hrendered : Rendered expr node strength text)
    (hlow : low ≤ strength) : Rendered expr node low text := by
  refine ⟨(hrendered.reads.lower (by omega)).mono fun char hchar => ?_, hrendered.digits⟩
  unfold followers at hchar
  split at hchar
  · rw [followers, if_pos (by omega)]
    exact hchar
  · exact closes_of_followers hchar

/-- The text in parentheses, in any place. -/
theorem group (hrendered : Rendered expr node strength text) (place : Nat) :
    Rendered expr node place (parenthesized text) := by
  have hreads : ReadsBack expr 0 closes text :=
    (hrendered.reads.lower (Nat.zero_le _)).mono fun _ => closes_of_followers
  have hmem : '(' ∈ (parenthesized text).toList := by simp [parenthesized]
  refine ⟨(hreads.group.lower (by omega)).mono fun _ _ => rfl, fun hall => ?_⟩
  exact absurd hall (not_all_digits _ hmem rfl)

end Rendered

namespace Phrased

variable {style : Style} {expr : Expr} {node : Value} {text : String} {strength : Nat}

/-- An expression that binds at least as tightly as a call. -/
theorem tight (hshows : ∀ level, node.Shows style level text strength) (hstrength : 16 ≤ strength)
    (hreads : ReadsBack expr 16 (endsBefore text) text)
    (hdigits : text.toList.all Char.isDigit = true → node.isNumeric = true)
    (htight : expr.isTight = true) : Phrased style expr node := by
  refine ⟨text, strength, hshows, ⟨?_, hdigits⟩, iff_of_true hstrength htight⟩
  rw [followers, if_pos hstrength, Nat.min_eq_right hstrength]
  exact hreads

/-- An expression that binds less tightly than a call. -/
theorem loose (hshows : ∀ level, node.Shows style level text strength) (hstrength : strength < 16)
    (hreads : ReadsBack expr strength closes text) (char : Char) (hmem : char ∈ text.toList)
    (hchar : char.isDigit = false) (hloose : expr.isTight = false) : Phrased style expr node := by
  refine ⟨text, strength, hshows, ⟨?_, fun hall => absurd hall (not_all_digits _ hmem hchar)⟩,
    iff_of_false (Nat.not_le_of_lt hstrength) (by rw [hloose]; exact Bool.false_ne_true)⟩
  rw [followers, if_neg (by omega), Nat.min_eq_left (by omega)]
  exact hreads

/-- A node in a place that asks for a strength. -/
theorem placed (hphrased : Phrased style expr node) (strength : Nat) :
    ∃ text, (∀ level, node.PrintsAs style strength level text) ∧
      Rendered expr node strength text := by
  obtain ⟨text, own, hshows, hrendered, -⟩ := hphrased
  refine ⟨_, fun level => (hshows level).printsAs strength, ?_⟩
  split
  · exact hrendered.group strength
  · exact hrendered.lower (by omega)

/-- A node in a place that asks for less than a call. -/
theorem placed_below (hphrased : Phrased style expr node) (strength : Nat)
    (hstrength : strength < 16) :
    ∃ text, (∀ level, node.PrintsAs style strength level text) ∧
      ReadsBack expr strength closes text := by
  obtain ⟨text, hprints, hrendered⟩ := hphrased.placed strength
  have hreads := hrendered.reads
  rw [followers, if_neg (by omega), Nat.min_eq_left (by omega)] at hreads
  exact ⟨text, hprints, hreads⟩

/-- What can be assigned to stands without parentheses. -/
theorem placed_target (hphrased : Phrased style expr node) (htarget : expr.isTarget = true)
    (strength : Nat) (hstrength : strength ≤ 16) :
    ∃ text, (∀ level, node.PrintsAs style strength level text) ∧
      ReadsBack expr 16 (endsBefore text) text := by
  obtain ⟨text, own, hshows, hrendered, hown⟩ := hphrased
  have htight : 16 ≤ own := hown.2 (by cases expr <;> first | rfl | cases htarget)
  refine ⟨text, fun level => ?_, (hrendered.lower htight).reads⟩
  have hprints := (hshows level).printsAs strength
  rwa [if_neg (by omega)] at hprints

theorem name {text : String} (hkind : node.kind = .identifier)
    (hname : node.lookup "name" = some (.text text)) (hword : isWord text = true)
    (hreserved : text ∉ reservedWords) : Phrased style (.name text) node := by
  obtain ⟨char, rest, htext, -, hdigit, -⟩ := isWord_iff.1 hword
  have hmem : char ∈ text.toList := by simp [htext]
  exact tight (fun _ => Value.shows_name hkind hname) (by decide)
    ((ReadsBack.name hword hreserved).lower (by decide))
    (fun hall => absurd hall (not_all_digits _ hmem hdigit)) rfl

theorem self (hkind : node.kind = .thisExpression) : Phrased style .self node :=
  tight (fun _ => Value.shows_self hkind) (by decide) (ReadsBack.self.lower (by decide))
    (fun hall => absurd hall (by decide)) rfl

theorem literal {text : String} (hkind : node.kind = .literal)
    (hsource : node.literalSource = .ok text) (hliteral : isLiteral text = true)
    (hnumber : isNumber text = true → node.isNumeric = true) :
    Phrased style (.literal text) node :=
  tight (fun _ => Value.shows_literal hkind hsource) (by decide)
    ((ReadsBack.literal hliteral).lower (by decide))
    (fun hall => hnumber (isNumber_of_digits hliteral hall)) rfl

theorem unary {argument : Value} {op : UnaryOp} (hkind : node.kind = .unaryExpression)
    (hop : node.lookup "operator" = some (.text (spelling op)))
    (hargument : node.lookup "argument" = some argument)
    (hphrased : Phrased style expr argument) : Phrased style (.unary op expr) node := by
  obtain ⟨text, hprints, hreads⟩ := hphrased.placed_below 14 (by decide)
  cases hsign : op.sign? with
  | none =>
    exact loose (fun level => Value.shows_keyword hkind hop hsign hargument (hprints level))
      (by decide) (hreads.keyword hsign) ' ' (by simp) rfl rfl
  | some sign =>
    have hmem : sign ∈ (spelling op).toList ∧ sign.isDigit = false := by
      cases op <;> cases hsign <;> decide
    exact loose (fun level => Value.shows_signed hkind hop hsign hargument (hprints level))
      (by decide) (hreads.signed hsign) sign (by simp [hmem.1]) hmem.2 rfl

theorem update {argument : Value} {op : UpdateOp} (hkind : node.kind = .updateExpression)
    (hop : node.lookup "operator" = some (.text (spelling op)))
    (hargument : node.lookup "argument" = some argument)
    (hphrased : Phrased style expr argument) (htarget : expr.isTarget = true) :
    Phrased style (.update op (node.flag "prefix") expr) node := by
  obtain ⟨text, hprints, hreads⟩ := hphrased.placed_target htarget Precedence.update (by decide)
  have hshows := fun level => Value.shows_update hkind hop hargument (hprints level)
  have hmarks : (spelling op).toList.any (fun char => char.isDigit == false) = true := by
    cases op <;> decide
  obtain ⟨char, hchar, hdigit⟩ := List.any_eq_true.1 hmarks
  rw [beq_iff_eq] at hdigit
  cases hflag : node.flag "prefix" with
  | true =>
    simp only [hflag, if_true] at hshows
    have hfront : ReadsBack (.update op true expr) 15 closes (spelling op ++ text) :=
      (hreads.mono fun _ => endsBefore_of_closes).updateFront htarget
    exact loose hshows (by decide) (hfront.lower (by decide)) char (by simp [hchar]) hdigit rfl
  | false =>
    simp only [hflag, Bool.false_eq_true, if_false] at hshows
    have hafter : ReadsBack (.update op false expr) 15 closes (text ++ spelling op) :=
      (hreads.updateAfter htarget).mono fun _ _ => rfl
    exact loose hshows (by decide) hafter char (by simp [hchar]) hdigit rfl

theorem binary {left right : Value} {op : BinaryOp} {first second : Expr}
    (hkind : node.kind = op.kind) (hop : node.lookup "operator" = some (.text (spelling op)))
    (hleft : node.lookup "left" = some left) (hright : node.lookup "right" = some right)
    (hfirst : Phrased style first left) (hsecond : Phrased style second right) :
    Phrased style (.binary op first second) node := by
  have hlevels := op.level_cases
  have hbounds := op.level_bounds
  obtain ⟨front, hfront, hfrontReads⟩ := hfirst.placed_below op.leftLevel (by omega)
  obtain ⟨back, hback, hbackReads⟩ := hsecond.placed_below op.rightLevel (by omega)
  exact loose
    (fun level => Value.shows_binary hkind hop hleft hright (hfront level) (hback level))
    (by omega) (hfrontReads.binary hbackReads) ' ' (by simp) rfl rfl

theorem assign {left right : Value} {op : AssignOp} {target value : Expr}
    (hkind : node.kind = .assignmentExpression)
    (hop : node.lookup "operator" = some (.text (spelling op)))
    (hleft : node.lookup "left" = some left) (hright : node.lookup "right" = some right)
    (hfirst : Phrased style target left) (htarget : target.isTarget = true)
    (hsecond : Phrased style value right) : Phrased style (.assign op target value) node := by
  obtain ⟨front, hfront, hfrontReads⟩ := hfirst.placed_target htarget Precedence.call (by decide)
  obtain ⟨back, hback, hbackReads⟩ := hsecond.placed_below 1 (by decide)
  have hreads : ReadsBack (.assign op target value) 1 closes
      (front ++ " " ++ spelling op ++ " " ++ back) :=
    (hfrontReads.mono fun _ => endsBefore_of_closes).assign htarget hbackReads
  exact loose
    (fun level => Value.shows_assign hkind hop hleft hright (hfront level) (hback level))
    (by decide) hreads ' ' (by simp) rfl rfl

theorem conditional {first second third : Value} {test consequent alternate : Expr}
    (hkind : node.kind = .conditionalExpression) (hfirst : node.lookup "test" = some first)
    (hsecond : node.lookup "consequent" = some second)
    (hthird : node.lookup "alternate" = some third) (htest : Phrased style test first)
    (hconsequent : Phrased style consequent second)
    (halternate : Phrased style alternate third) :
    Phrased style (.conditional test consequent alternate) node := by
  obtain ⟨front, hfront, hfrontReads⟩ := htest.placed_below 3 (by decide)
  obtain ⟨middle, hmiddle, hmiddleReads⟩ := hconsequent.placed_below 1 (by decide)
  obtain ⟨back, hback, hbackReads⟩ := halternate.placed_below 1 (by decide)
  exact loose (fun level => Value.shows_conditional hkind hfirst hsecond hthird (hfront level)
      (hmiddle level) (hback level))
    (by decide) (hfrontReads.conditional hmiddleReads hbackReads) '?' (by simp) rfl rfl

/-- What the items of a list are printed as. -/
theorem exists_texts {items : List (Expr × Value)}
    (hitems : ∀ item ∈ items, Phrased style item.1 item.2) :
    ∃ texts : List (Expr × String), texts.map Prod.fst = items.map Prod.fst ∧
      (∀ text ∈ texts, ReadsBack text.1 1 closes text.2) ∧
      ∀ level, List.Forall₂ (fun item => Value.PrintsAs item style Precedence.assignment level)
        (items.map Prod.snd) (texts.map Prod.snd) := by
  induction items with
  | nil => exact ⟨[], rfl, nofun, fun _ => .nil⟩
  | cons item rest ih =>
    obtain ⟨text, hprints, hreads⟩ := (hitems item List.mem_cons_self).placed_below 1 (by decide)
    obtain ⟨texts, hexprs, htexts, hrest⟩ :=
      ih fun other hmem => hitems other (List.mem_cons_of_mem _ hmem)
    exact ⟨(item.1, text) :: texts, congrArg (item.1 :: ·) hexprs,
      List.forall_mem_cons.2 ⟨hreads, htexts⟩,
      fun level => .cons (hprints level) (hrest level)⟩

theorem comma_mem_separated {texts : List (Expr × String)} (hlength : 2 ≤ texts.length) :
    ',' ∈ (", ".intercalate (texts.map Prod.snd)).toList := by
  cases texts with
  | nil => cases hlength
  | cons first rest =>
    cases rest with
    | nil => exact absurd hlength (by simp)
    | cons second rest => simp [String.intercalate_cons_cons]

theorem sequence {items : List (Expr × Value)} (hkind : node.kind = .sequenceExpression)
    (hlookup : node.lookup "expressions" = some (.array (items.map Prod.snd)))
    (hlength : 2 ≤ items.length) (hitems : ∀ item ∈ items, Phrased style item.1 item.2) :
    Phrased style (.sequence (items.map Prod.fst)) node := by
  obtain ⟨texts, hexprs, htexts, hprints⟩ := exists_texts hitems
  have hlengths := congrArg List.length hexprs
  rw [List.length_map, List.length_map] at hlengths
  rw [← hexprs]
  exact loose (fun level => Value.shows_sequence hkind hlookup (hprints level)) (by decide)
    (.sequence (hlengths ▸ hlength) htexts) ',' (comma_mem_separated (hlengths ▸ hlength))
    rfl rfl

theorem call {function : Value} {callee : Expr} {items : List (Expr × Value)}
    (hkind : node.kind = .callExpression) (hfunction : node.lookup "callee" = some function)
    (hlookup : node.lookup "arguments" = some (.array (items.map Prod.snd)))
    (hcallee : Phrased style callee function)
    (hitems : ∀ item ∈ items, Phrased style item.1 item.2) :
    Phrased style (.call callee (items.map Prod.fst)) node := by
  obtain ⟨text, hprints, hrendered⟩ := hcallee.placed 16
  obtain ⟨texts, hexprs, htexts, hargs⟩ := exists_texts hitems
  rw [← hexprs]
  have hreads := hrendered.reads.call rfl htexts
  refine tight
    (fun level => Value.shows_call hkind hfunction hlookup (hprints level) (hargs level))
    (by decide) (hreads.mono fun _ _ => rfl) (fun hall => ?_) rfl
  exact absurd hall (not_all_digits '(' (by simp [parenthesized]) rfl)

/-- The owner of a member.  Behind digits alone a point would be part of the number, and the
parentheses that keep them apart stand exactly there. -/
theorem exists_owner {object : Value} (hlookup : node.lookup "object" = some object)
    (hphrased : Phrased style expr object) :
    ∃ owner, (∀ level, (node.printer style).memberOwner level = .ok owner) ∧
      ReadsBack expr 16 (fun char => char == '.' || char == '[') owner := by
  obtain ⟨text, hprints, hrendered⟩ := hphrased.placed 16
  refine ⟨_, fun level => Value.memberOwner_eq_ok hlookup (hprints level), ?_⟩
  split
  · have hreads : ReadsBack expr 0 closes text :=
      (hrendered.reads.lower (Nat.zero_le _)).mono fun _ => closes_of_followers
    exact (hreads.group.lower (by decide)).mono fun _ _ => rfl
  · rename_i hbare
    have hdigits : text.toList.all Char.isDigit = false := by
      by_contra hall
      rw [Bool.not_eq_false] at hall
      apply hbare
      rw [hrendered.digits hall, spells_digits hrendered.reads.starts hall]
      rfl
    refine hrendered.reads.mono fun char hchar => ?_
    rw [Bool.or_eq_true, beq_iff_eq, beq_iff_eq] at hchar
    rcases hchar with rfl | rfl
    · simp [followers, endsBefore, hdigits]
    · rfl

theorem member {object property : Value} {name : String}
    (hkind : node.kind = .memberExpression) (hcomputed : node.flag "computed" = false)
    (hobject : node.lookup "object" = some object)
    (hproperty : node.lookup "property" = some property) (howner : Phrased style expr object)
    (hname : property.lookup "name" = some (.text name)) (hword : isWord name = true) :
    Phrased style (.member expr name) node := by
  obtain ⟨owner, hprints, hreads⟩ := exists_owner hobject howner
  refine tight
    (fun level => Value.shows_member hkind hcomputed (hprints level) hproperty hname) (by decide)
    ((hreads.member rfl hword).mono fun _ => isWordEnd_of_endsBefore) (fun hall => ?_) rfl
  exact absurd hall (not_all_digits '.' (by simp) rfl)

theorem index {object property : Value} {place : Expr}
    (hkind : node.kind = .memberExpression) (hcomputed : node.flag "computed" = true)
    (hobject : node.lookup "object" = some object)
    (hproperty : node.lookup "property" = some property) (howner : Phrased style expr object)
    (hplace : Phrased style place property) : Phrased style (.index expr place) node := by
  obtain ⟨owner, hprints, hreads⟩ := exists_owner hobject howner
  obtain ⟨inner, hinner, hinnerReads⟩ := hplace.placed_below 0 (by decide)
  refine tight (fun level => Value.shows_index hkind hcomputed (hprints level) hproperty
      (hinner level))
    (by decide) ((hreads.index rfl hinnerReads).mono fun _ _ => rfl) (fun hall => ?_) rfl
  exact absurd hall (not_all_digits '[' (by simp) rfl)

/-- What the elements of an array are printed as; holes stay holes. -/
theorem exists_pieces {elements : List (Option Expr × Value)}
    (hholes : ∀ element ∈ elements, element.1 = none → element.2 = .null)
    (hnodes : ∀ element ∈ elements, ∀ expr, element.1 = some expr → element.2.isNull = false)
    (helements : ∀ element ∈ elements, ∀ expr, element.1 = some expr →
      Phrased style expr element.2) :
    ∃ pieces : List (Option (Expr × String)),
      pieces.map (Option.map Prod.fst) = elements.map Prod.fst ∧
      (∀ piece, some piece ∈ pieces → ReadsBack piece.1 1 closes piece.2) ∧
      ∀ level, List.Forall₂ (fun element piece => element.isNull = piece.isNone ∧ ∀ text,
        piece = some text → element.PrintsAs style Precedence.assignment level text)
        (elements.map Prod.snd) (pieces.map (Option.map Prod.snd)) := by
  induction elements with
  | nil => exact ⟨[], rfl, nofun, fun _ => .nil⟩
  | cons element rest ih =>
    rw [List.forall_mem_cons] at hholes hnodes helements
    obtain ⟨pieces, hexprs, hpieces, hprints⟩ := ih hholes.2 hnodes.2 helements.2
    cases helement : element.1 with
    | none =>
      refine ⟨none :: pieces, by simp [helement, hexprs], by simpa using hpieces,
        fun level => .cons ?_ (hprints level)⟩
      exact ⟨by rw [hholes.1 helement]; rfl, nofun⟩
    | some expr =>
      obtain ⟨text, htext, hreads⟩ := (helements.1 expr helement).placed_below 1 (by decide)
      refine ⟨some (expr, text) :: pieces, by simp [helement, hexprs], ?_,
        fun level => .cons ?_ (hprints level)⟩
      · intro piece hmem
        rcases List.mem_cons.1 hmem with heq | hmem
        · cases heq
          exact hreads
        · exact hpieces piece hmem
      · refine ⟨hnodes.1 expr helement, fun other hother => ?_⟩
        cases hother
        exact htext level

theorem array {elements : List (Option Expr × Value)} (hkind : node.kind = .arrayExpression)
    (hlookup : node.lookup "elements" = some (.array (elements.map Prod.snd)))
    (hholes : ∀ element ∈ elements, element.1 = none → element.2 = .null)
    (hnodes : ∀ element ∈ elements, ∀ expr, element.1 = some expr → element.2.isNull = false)
    (helements : ∀ element ∈ elements, ∀ expr, element.1 = some expr →
      Phrased style expr element.2) :
    Phrased style (.array (elements.map Prod.fst)) node := by
  obtain ⟨pieces, hexprs, hpieces, hprints⟩ := exists_pieces hholes hnodes helements
  rw [← hexprs]
  refine tight (fun level => Value.shows_array hkind hlookup (hprints level)) (by decide)
    (((ReadsBack.array hpieces).lower (by decide)).mono fun _ _ => rfl) (fun hall => ?_) rfl
  exact absurd hall (not_all_digits '[' (by simp [Value.arrayText]) rfl)

end Phrased

theorem phrased_of_depicts (hdepicts : Depicts expr node) (style : Style) :
    Phrased style expr node := by
  induction hdepicts with
  | name hkind hname hword hreserved => exact .name hkind hname hword hreserved
  | self hkind => exact .self hkind
  | literal hkind hsource hliteral hnumber => exact .literal hkind hsource hliteral hnumber
  | array hkind hlookup hholes hdepicts ih =>
    exact .array hkind hlookup hholes
      (fun element hmem expr hexpr => (hdepicts element hmem expr hexpr).isNull_eq_false) ih
  | unary hkind hop hargument _ ih => exact .unary hkind hop hargument ih
  | update hkind hop hargument _ htarget ih => exact .update hkind hop hargument ih htarget
  | binary hkind hop hleft hright _ _ hfirst hsecond =>
    exact .binary hkind hop hleft hright hfirst hsecond
  | assign hkind hop hleft hright _ htarget _ hfirst hsecond =>
    exact .assign hkind hop hleft hright hfirst htarget hsecond
  | conditional hkind hfirst hsecond hthird _ _ _ htest hconsequent halternate =>
    exact .conditional hkind hfirst hsecond hthird htest hconsequent halternate
  | sequence hkind hlookup hlength _ ih => exact .sequence hkind hlookup hlength ih
  | member hkind hcomputed hobject hproperty _ _ hname hword ih =>
    exact .member hkind hcomputed hobject hproperty ih hname hword
  | index hkind hcomputed hobject hproperty _ _ howner hplace =>
    exact .index hkind hcomputed hobject hproperty howner hplace
  | call hkind hfunction hlookup _ _ hcallee hitems =>
    exact .call hkind hfunction hlookup hcallee hitems

/-- An operator expression can stand wherever an operand is asked for, as the lexemes of its
text.  A tree with functions or objects cannot always: behind their last brace a slash is taken
for the start of a regular expression, unless the grammar has a say in it. -/
theorem Depicts.exists_spells (hdepicts : Depicts expr node) (style : Style) (strength : Nat) :
    ∃ text lexemes, (∀ level, node.PrintsAs style strength level text) ∧
      lexemes? text = some lexemes ∧ node.Spells style false strength lexemes ∧
      Derives (min strength 16) lexemes expr ∧ Closed (dividers (min strength 16)) lexemes := by
  obtain ⟨text, hprints, hrendered⟩ := (phrased_of_depicts hdepicts style).placed strength
  obtain ⟨lexemes, hderives, hclosed, hscans⟩ := hrendered.reads.scans
  have hscript := (hscans .script).mono fun _ => closes_of_followers
  exact ⟨text, lexemes, hprints, hscript.lexFrom_eq,
    fun level => ⟨text, .operator, hprints level, hscript⟩, hderives, hclosed⟩

/-- One text of an operator expression tells what it is printed as everywhere. -/
theorem Depicts.spells {style : Style} {lexemes : List Lexeme} (hdepicts : Depicts expr node)
    (text : String) (hprints : (node.print style false).expression strength 0 = .ok (.text text))
    (hlexemes : lexemes? text = some lexemes) : node.Spells style false strength lexemes := by
  obtain ⟨written, found, hwritten, hfound, hspells, -⟩ := hdepicts.exists_spells style strength
  cases hprints.symm.trans (hwritten 0)
  cases hlexemes.symm.trans hfound
  exact hspells

/-- The same for an operator expression that has to stand in parentheses. -/
theorem Depicts.exists_spellsLoosely (hdepicts : Depicts expr node) (hloose : expr.isTight = false)
    (style : Style) :
    ∃ text strength lexemes, (∀ level, node.Shows style level text strength) ∧
      lexemes? text = some lexemes ∧ node.SpellsLoosely style false lexemes ∧
      Derives 0 lexemes expr ∧ Closed [] lexemes := by
  obtain ⟨text, own, hshows, hrendered, htight⟩ := phrased_of_depicts hdepicts style
  obtain ⟨lexemes, hderives, hclosed, hscans⟩ := hrendered.reads.scans
  have hscript := (hscans .script).mono fun _ => closes_of_followers
  have hown : own < Precedence.call := by
    rw [hloose, iff_false_right Bool.false_ne_true] at htight
    exact Nat.lt_of_not_le htight
  exact ⟨text, own, lexemes, hshows, hscript.lexFrom_eq,
    fun level => ⟨text, own, .operator, hshows level, hown, hscript⟩,
    hderives.lower (Nat.zero_le _), hclosed.mono (List.nil_subset _)⟩

/-- What a tree is printed as in any place is read back as the expression that the tree
depicts, and as nothing else. -/
theorem print_reads_back {expr : Expr} {node : Value} (hdepicts : Depicts expr node)
    (style : Style) (strength : Nat) (level : Int) :
    ∃ text lexemes, (node.print style false).expression strength level = .ok (.text text) ∧
      lex .operand text.toList = some lexemes ∧ Derives 0 lexemes expr ∧
      (∀ other, Derives 0 lexemes other → other = expr) ∧
      readExpression lexemes = some expr := by
  obtain ⟨text, hprints, hrendered⟩ := (phrased_of_depicts hdepicts style).placed strength
  obtain ⟨lexemes, hderives, -, hscans⟩ := hrendered.reads.scans
  exact ⟨text, lexemes, hprints level, (hscans .line).lexFrom_eq, hderives.lower (Nat.zero_le _),
    fun other hother => hderives.unique hother, readExpression_of_derives hderives⟩

/-- The expression `(5).toFixed(- -a, (-b) ** c)`, of which no parenthesis and no space can
be left out. -/
def negatedPower : Expr :=
  .call (.member (.literal "5") "toFixed")
    [.unary .minus (.unary .minus (.name "a")),
      .binary .power (.unary .minus (.name "b")) (.name "c")]

def negatedPowerTree : Value :=
  Build.call (Build.member (Build.numeral 5 "5") "toFixed")
    [Build.unary "-" (Build.unary "-" (Build.name "a")),
      Build.binary "**" (Build.unary "-" (Build.name "b")) (Build.name "c")]

theorem depicts_negatedPower : Depicts negatedPower negatedPowerTree := by
  have hname : ∀ text, isWord text = true → text ∉ reservedWords →
      Depicts (.name text) (Build.name text) := fun text hword hreserved =>
    .name rfl rfl hword hreserved
  have hminus : ∀ expr node, Depicts expr node →
      Depicts (.unary .minus expr) (Build.unary "-" node) := fun expr node hdepicts =>
    .unary rfl rfl rfl hdepicts
  have hnumber : Depicts (.literal "5") (Build.numeral 5 "5") := .literal rfl rfl rfl (by decide)
  have hmember : Depicts (.member (.literal "5") "toFixed")
      (Build.member (Build.numeral 5 "5") "toFixed") :=
    .member rfl rfl rfl rfl hnumber rfl rfl rfl
  have hfirst := hminus _ _ (hminus _ _ (hname "a" rfl (by decide)))
  have hsecond : Depicts (.binary .power (.unary .minus (.name "b")) (.name "c"))
      (Build.binary "**" (Build.unary "-" (Build.name "b")) (Build.name "c")) :=
    .binary rfl rfl rfl rfl (hminus _ _ (hname "b" rfl (by decide)))
      (hname "c" rfl (by decide))
  exact @Depicts.call negatedPowerTree _ _ [(_, _), (_, _)] rfl rfl rfl hmember
    (List.forall_mem_cons.2 ⟨hfirst, List.forall_mem_singleton.2 hsecond⟩)

theorem print_reads_back_negatedPower :
    Depicts negatedPower negatedPowerTree ∧
      ∃ text lexemes, (negatedPowerTree.print {} false).expression 0 0 = .ok (.text text) ∧
        lex .operand text.toList = some lexemes ∧ Derives 0 lexemes negatedPower ∧
        (∀ other, Derives 0 lexemes other → other = negatedPower) ∧
        readExpression lexemes = some negatedPower :=
  ⟨depicts_negatedPower, print_reads_back depicts_negatedPower {} 0 0⟩

end Debundle
