import Debundle.Proofs.Script.Operand

/-!
# Texts that are read back

A text is read back as an expression if it falls into lexemes from which the grammar
derives the expression, whatever stands around it.  The brackets among the lexemes match, and
outside of them there is no semicolon, and a comma only in an expression with commas.  Each
way to put an expression together has a way to put its text together; the lemmas below say so
one by one, with what the text may be followed by.
-/

namespace Debundle

open Operator Lexer

/-- A text does not start with a character that a mark in front of it could take. -/
def startsOperand (text : String) : Bool :=
  text.toList.head?.any (· != '=')

variable {text : String} {level : Nat} {layout : Layout} {front back : List Lexeme} {goal : Goal}
  {items : List (Expr × String)}

theorem startsOperand_iff :
    startsOperand text = true ↔ ∃ char rest, text.toList = char :: rest ∧ char ≠ '=' := by
  unfold startsOperand
  cases text.toList with
  | nil => simp
  | cons char rest => simp

theorem startsOperand_append (hstarts : startsOperand text = true) (more : String) :
    startsOperand (text ++ more) = true := by
  rw [startsOperand_iff] at hstarts ⊢
  obtain ⟨char, rest, htext, hchar⟩ := hstarts
  exact ⟨char, rest ++ more.toList, by rw [String.toList_append, htext, List.cons_append], hchar⟩

/-- What does not stand outside of brackets in an expression of a level. -/
def dividers : Nat → List Lexeme
  | 0 => [.mark ";"]
  | _ + 1 => [.mark ";", .comma]

theorem dividers_subset {low : Nat} (hlow : low ≤ level) : dividers low ⊆ dividers level := by
  cases level with
  | zero =>
    cases Nat.le_zero.1 hlow
    exact List.Subset.refl _
  | succ level =>
    cases low with
    | zero => exact List.subset_append_left [Lexeme.mark ";"] _
    | succ low => exact List.Subset.refl _

theorem not_mem_dividers {lexeme : Lexeme} (hdivider : lexeme ∉ dividers 1) (level : Nat) :
    lexeme ∉ dividers level := by
  cases level with
  | zero => exact fun hmem => hdivider (dividers_subset (Nat.zero_le 1) hmem)
  | succ level => exact hdivider

theorem isArgument_of_closed {item : List Lexeme} (hsome : item ≠ []) (hlevel : 1 ≤ level)
    (hclosed : Closed (dividers level) item) : IsArgument item :=
  ⟨hsome, (hclosed.mono (dividers_subset hlevel)).mono
    (List.subset_append_right [Lexeme.mark ";"] _)⟩

theorem word_not_divider (text : String) : Lexeme.word text ∉ dividers 1 := by
  simp [dividers, Lexeme.comma]

theorem Derives.ne_nil {lexemes : List Lexeme} {expr : Expr}
    (hderives : Derives level lexemes expr) : lexemes ≠ [] := by
  induction hderives with
  | lower _ _ ih => exact ih
  | sequence hlength _ hseparated _ =>
    generalize hmap : List.map Prod.fst _ = shape at hseparated
    cases hseparated with
    | last item =>
      rw [← List.length_map Prod.fst, hmap] at hlength
      exact absurd hlength (Nat.not_succ_le_self 1)
    | item item _ => simp
  | _ => simp

/-- A text is read as an expression of a level, wherever it is followed by one of `stops`. -/
structure ReadsBack (expr : Expr) (level : Nat) (stops : Char → Bool) (text : String) :
    Prop where
  starts : startsOperand text = true
  scans : ∃ lexemes, Derives level lexemes expr ∧ Closed (dividers level) lexemes ∧
    ∀ layout, Scans layout .operand text.toList lexemes .operator stops

theorem startsOperand_of_word (hword : isWord text = true) : startsOperand text = true := by
  obtain ⟨char, rest, htext, hchar, -⟩ := isWord_iff.1 hword
  rw [startsOperand_iff]
  refine ⟨char, rest, htext, ?_⟩
  rintro rfl
  cases hchar

theorem startsOperand_of_literal (hliteral : isLiteral text = true) :
    startsOperand text = true := by
  have hconstants : ∀ word ∈ constantWords, startsOperand word = true := by decide
  rw [isLiteral, Bool.or_eq_true, List.contains_iff_mem, Option.any_eq_true] at hliteral
  rcases hliteral with hconstant | ⟨scan, hscanned, -⟩
  · exact hconstants text hconstant
  · rw [startsOperand_iff]
    cases htext : text.toList with
    | nil =>
      rw [htext] at hscanned
      cases hscanned
    | cons char rest =>
      refine ⟨char, rest, rfl, ?_⟩
      rintro rfl
      rw [htext] at hscanned
      cases hscanned

/-- An operator with a space on each side between two operands. -/
theorem scans_between {left right : String} {stops : Char → Bool} (lexeme : Lexeme)
    (hspaced : isSpaced lexeme = true)
    (hleft : Scans layout goal left.toList front .operator closes)
    (hright : Scans layout .operand right.toList back .operator stops) :
    Scans layout goal (left ++ " " ++ lexeme.text ++ " " ++ right).toList
      (front ++ lexeme :: back) .operator stops := by
  have hscans := hleft.append_cons ((Scans.spaced hspaced).append_any hright) rfl
  simpa using hscans

theorem closed_between {stops : List Lexeme} {lexeme : Lexeme} (hrole : lexeme.role = .plain)
    (hstop : lexeme ∉ stops) (hfront : Closed stops front) (hback : Closed stops back) :
    Closed stops (front ++ lexeme :: back) :=
  hfront.append (hback.cons hrole hstop)

theorem spaced_binary (op : BinaryOp) : isSpaced (lexeme op) = true ∧
    (lexeme op).role = .plain ∧ lexeme op ∉ dividers 1 := by
  cases op <;> decide

theorem spaced_assign (op : AssignOp) : isSpaced (lexeme op) = true ∧
    (lexeme op).role = .plain ∧ lexeme op ∉ dividers 1 := by
  cases op <;> decide

theorem plain_unary (op : UnaryOp) : (lexeme op).role = .plain ∧ lexeme op ∉ dividers 1 := by
  cases op <;> decide

/-- An update operator may be followed by anything. -/
theorem scans_update (op : UpdateOp) :
    Scans layout goal (spelling op).toList [lexeme op] goal anyChar := by
  have hfree : continuations (spelling op) = [] ∧ spelling op ≠ "." := by cases op <;> decide
  have hmark : Scans layout goal (spelling op).toList [lexeme op] goal
      (markStops (spelling op)) := by
    cases op <;> exact Scans.mark (by decide) (by decide) (.inr (by decide)) rfl
  exact hmark.mono fun char _ => by simp [markStops, hfree]

theorem plain_update (op : UpdateOp) : (lexeme op).role = .plain ∧ lexeme op ∉ dividers 1 := by
  cases op <;> decide

theorem startsOperand_unary (op : UnaryOp) : startsOperand (spelling op) = true := by
  cases op <;> decide

/-- An operand that does not start with the sign again does not run into it. -/
theorem markStops_sign {op : UnaryOp} {sign char : Char} (hsign : op.sign? = some sign)
    (hchar : char ≠ '=') (hgap : char = sign → sign ≠ '+' ∧ sign ≠ '-') :
    markStops (spelling op) char = true := by
  have hcontinued : (continuations (spelling op)).all (fun next =>
      next = '=' ∨ next = sign ∧ (sign = '+' ∨ sign = '-')) = true := by
    cases op <;> cases hsign <;> decide
  have hpoint : spelling op ≠ "." := by cases op <;> decide
  have hfree : char ∉ continuations (spelling op) := by
    intro hmem
    rcases of_decide_eq_true (List.all_eq_true.1 hcontinued char hmem) with
      heq | ⟨heq, hplus | hminus⟩
    · exact hchar heq
    · exact (hgap heq).1 hplus
    · exact (hgap heq).2 hminus
  simp [markStops, hfree, hpoint]

namespace ReadsBack

variable {expr : Expr} {level : Nat} {stops : Char → Bool} {text : String}

theorem lower {low : Nat} (hreads : ReadsBack expr level stops text) (hlow : low ≤ level) :
    ReadsBack expr low stops text := by
  obtain ⟨lexemes, hderives, hclosed, hscans⟩ := hreads.scans
  exact ⟨hreads.starts, lexemes, hderives.lower hlow, hclosed.mono (dividers_subset hlow), hscans⟩

theorem mono {fewer : Char → Bool} (hreads : ReadsBack expr level stops text)
    (hfewer : ∀ char, fewer char = true → stops char = true) :
    ReadsBack expr level fewer text := by
  obtain ⟨lexemes, hderives, hclosed, hscans⟩ := hreads.scans
  exact ⟨hreads.starts, lexemes, hderives, hclosed, fun layout => (hscans layout).mono hfewer⟩

theorem starts_between (hreads : ReadsBack expr level stops text) {one two three four : String} :
    startsOperand (text ++ one ++ two ++ three ++ four) = true := by
  iterate 4 apply startsOperand_append
  exact hreads.starts

/-- What stands in parentheses may be followed by anything. -/
theorem group (hreads : ReadsBack expr 0 closes text) :
    ReadsBack expr 17 anyChar (parenthesized text) := by
  obtain ⟨lexemes, hderives, hclosed, hscans⟩ := hreads.scans
  exact ⟨startsOperand_append (startsOperand_append rfl _) _, _, hderives.group,
    closed_grouped (hclosed.mono (List.nil_subset _)),
    fun layout => (hscans layout).parenthesized rfl .operand⟩

/-- A name or a reserved word. -/
theorem word (hword : isWord text = true) (hderives : Derives 17 [.word text] expr)
    (hscans : ∀ layout, Scans layout .operand text.toList [.word text] .operator isWordEnd) :
    ReadsBack expr 17 (endsBefore text) text :=
  ⟨startsOperand_of_word hword, _, hderives,
    .single rfl (word_not_divider text),
    fun layout => (hscans layout).mono fun _ => isWordEnd_of_endsBefore⟩

theorem name (hname : isWord text = true) (hreserved : text ∉ reservedWords) :
    ReadsBack (.name text) 17 (endsBefore text) text :=
  word hname (.name hreserved) fun _ => .name hname hreserved

theorem self : ReadsBack .self 17 (endsBefore "this") "this" :=
  word rfl .self fun _ => Scans.word rfl (.inr (by decide))

theorem literal (hliteral : isLiteral text = true) :
    ReadsBack (.literal text) 17 (endsBefore text) text := by
  have hderives : Derives 17 [literalLexeme text] (.literal text) := by
    unfold literalLexeme
    split
    · exact .constant ‹_›
    · exact .literal
  have hdivider : literalLexeme text ∉ dividers 17 := by
    unfold literalLexeme
    split <;> simp [dividers, Lexeme.comma]
  exact ⟨startsOperand_of_literal hliteral, _, hderives,
    .single (role_literalLexeme hliteral) hdivider,
    fun _ => Scans.literal hliteral⟩

theorem binary {op : BinaryOp} {left right : Expr} {first second : String}
    (hleft : ReadsBack left op.leftLevel closes first)
    (hright : ReadsBack right op.rightLevel closes second) :
    ReadsBack (.binary op left right) op.level closes
      (first ++ " " ++ spelling op ++ " " ++ second) := by
  obtain ⟨front, hfront, hfrontClosed, hfrontScans⟩ := hleft.scans
  obtain ⟨back, hback, hbackClosed, hbackScans⟩ := hright.scans
  obtain ⟨hspaced, hrole, hdivider⟩ := spaced_binary op
  have hlevels := op.level_cases
  exact ⟨hleft.starts_between, _, .binary hfront hback,
    closed_between hrole (not_mem_dividers hdivider _)
      (hfrontClosed.mono (dividers_subset (by omega)))
      (hbackClosed.mono (dividers_subset (by omega))),
    fun layout => scans_between _ hspaced (hfrontScans layout) (hbackScans layout)⟩

theorem assign {op : AssignOp} {target value : Expr} {first second : String}
    (hfirst : ReadsBack target 16 closes first) (htarget : target.isTarget = true)
    (hsecond : ReadsBack value 1 closes second) :
    ReadsBack (.assign op target value) 1 closes
      (first ++ " " ++ spelling op ++ " " ++ second) := by
  obtain ⟨front, hfront, hfrontClosed, hfrontScans⟩ := hfirst.scans
  obtain ⟨back, hback, hbackClosed, hbackScans⟩ := hsecond.scans
  obtain ⟨hspaced, hrole, hdivider⟩ := spaced_assign op
  exact ⟨hfirst.starts_between, _, .assign hfront htarget hback,
    closed_between hrole hdivider hfrontClosed hbackClosed,
    fun layout => scans_between _ hspaced (hfrontScans layout) (hbackScans layout)⟩

theorem conditional {test consequent alternate : Expr} {first second third : String}
    (htest : ReadsBack test 3 closes first) (hconsequent : ReadsBack consequent 1 closes second)
    (halternate : ReadsBack alternate 1 closes third) :
    ReadsBack (.conditional test consequent alternate) 2 closes
      (first ++ " ? " ++ second ++ " : " ++ third) := by
  obtain ⟨front, hfront, hfrontClosed, hfrontScans⟩ := htest.scans
  obtain ⟨middle, hmiddle, hmiddleClosed, hmiddleScans⟩ := hconsequent.scans
  obtain ⟨back, hback, hbackClosed, hbackScans⟩ := halternate.scans
  have hchoiceClosed : Closed (dividers 2) (front ++ .mark "?" :: middle) :=
    closed_between rfl (by decide) hfrontClosed hmiddleClosed
  refine ⟨htest.starts_between, _, .conditional hfront hmiddle hback,
    closed_between rfl (by decide) hchoiceClosed hbackClosed, fun layout => ?_⟩
  have hchoice := scans_between (.mark "?") rfl (hfrontScans layout) (hmiddleScans layout)
  have hbranch := scans_between (.mark ":") rfl hchoice (hbackScans layout)
  simpa [Lexeme.text] using hbranch

/-- An operator that is a word. -/
theorem keyword {op : UnaryOp} (hsign : op.sign? = none) (hreads : ReadsBack expr 14 closes text) :
    ReadsBack (.unary op expr) 14 closes (spelling op ++ " " ++ text) := by
  obtain ⟨lexemes, hderives, hclosed, hscans⟩ := hreads.scans
  obtain ⟨hrole, hdivider⟩ := plain_unary op
  refine ⟨startsOperand_append (startsOperand_append (startsOperand_unary op) _) _, _,
    hderives.unary, .cons hrole hdivider hclosed, fun layout => ?_⟩
  have hop : Scans layout .operand (spelling op).toList [lexeme op] .operand isWordEnd := by
    cases op <;> cases hsign <;> exact Scans.word rfl (.inr (by decide))
  simpa using hop.append_cons ((Scans.space .operand).append_any (hscans layout)) rfl

/-- An operator that is a mark. -/
theorem signed {op : UnaryOp} {sign : Char} (hsign : op.sign? = some sign)
    (hreads : ReadsBack expr 14 closes text) :
    ReadsBack (.unary op expr) 14 closes
      (spelling op ++ (if text.toList.head? == some sign && (sign == '+' || sign == '-') then " "
        else "") ++ text) := by
  obtain ⟨lexemes, hderives, hclosed, hscans⟩ := hreads.scans
  obtain ⟨char, rest, htext, hchar⟩ := startsOperand_iff.1 hreads.starts
  obtain ⟨hrole, hdivider⟩ := plain_unary op
  refine ⟨startsOperand_append (startsOperand_append (startsOperand_unary op) _) _, _,
    hderives.unary, .cons hrole hdivider hclosed, fun layout => ?_⟩
  have hop : Scans layout .operand (spelling op).toList [lexeme op] .operand
      (markStops (spelling op)) := by
    cases op <;> cases hsign <;> exact Scans.mark (by decide) (by decide) (.inr (by decide)) rfl
  split
  · have hspaced := (Scans.space .operand).append_any (hscans layout)
    simpa using hop.append_cons hspaced (markStops_space _)
  · rename_i hgap
    have hrest := hscans layout
    rw [htext] at hgap hrest
    simpa [htext] using hop.append_cons hrest (markStops_sign hsign hchar (by simpa using hgap))

theorem updateFront {op : UpdateOp} (hreads : ReadsBack expr 16 stops text)
    (htarget : expr.isTarget = true) :
    ReadsBack (.update op true expr) 15 stops (spelling op ++ text) := by
  obtain ⟨lexemes, hderives, hclosed, hscans⟩ := hreads.scans
  obtain ⟨hrole, hdivider⟩ := plain_update op
  have hstarts : startsOperand (spelling op) = true := by cases op <;> decide
  refine ⟨startsOperand_append hstarts _, _, hderives.updateFront htarget,
    .cons hrole hdivider hclosed, fun layout => ?_⟩
  simpa using (scans_update op).append_any (hscans layout)

theorem updateAfter {op : UpdateOp} (hreads : ReadsBack expr 16 (endsBefore text) text)
    (htarget : expr.isTarget = true) :
    ReadsBack (.update op false expr) 15 anyChar (text ++ spelling op) := by
  obtain ⟨lexemes, hderives, hclosed, hscans⟩ := hreads.scans
  obtain ⟨hrole, hdivider⟩ := plain_update op
  refine ⟨startsOperand_append hreads.starts _, _, hderives.updateAfter htarget,
    hclosed.append (.single hrole hdivider), fun layout => ?_⟩
  rw [String.toList_append]
  apply (hscans layout).append (scans_update op)
  intro rest _ char hhead
  cases op <;> cases hhead <;> rfl

theorem member {owner : Expr} {name : String} (howner : ReadsBack owner 16 stops text)
    (hpoint : stops '.' = true) (hname : isWord name = true) :
    ReadsBack (.member owner name) 16 isWordEnd (text ++ "." ++ name) := by
  obtain ⟨lexemes, hderives, hclosed, hscans⟩ := howner.scans
  refine ⟨startsOperand_append (startsOperand_append howner.starts _) _, _, hderives.member,
    hclosed.append (.cons rfl (by decide) (.single rfl (word_not_divider name))),
    fun layout => ?_⟩
  simpa using (hscans layout).append_cons (Scans.member hname) hpoint

theorem index {owner place : Expr} {inner : String} (howner : ReadsBack owner 16 stops text)
    (hbracket : stops '[' = true) (hplace : ReadsBack place 0 closes inner) :
    ReadsBack (.index owner place) 16 anyChar (text ++ "[" ++ inner ++ "]") := by
  obtain ⟨front, hfront, hfrontClosed, hfrontScans⟩ := howner.scans
  obtain ⟨back, hback, hbackClosed, hbackScans⟩ := hplace.scans
  refine ⟨startsOperand_append (startsOperand_append (startsOperand_append howner.starts _) _) _,
    _, hfront.index hback, ?_, fun layout => ?_⟩
  · rw [List.append_assoc]
    exact hfrontClosed.append (Closed.group rfl rfl hbackClosed)
  · have hsquared := (hbackScans layout).squared rfl .operator
    simpa using (hfrontScans layout).append_cons hsquared hbracket

end ReadsBack

/-- The lexemes of the items of a list. -/
theorem exists_shape (hitems : ∀ item ∈ items, ReadsBack item.1 1 closes item.2) :
    ∃ shape : List (List Lexeme × Expr), (∀ item ∈ shape, Derives 1 item.1 item.2) ∧
      (∀ item ∈ shape.map Prod.fst, item ≠ [] ∧ Closed (dividers 1) item) ∧
      shape.map Prod.snd = items.map Prod.fst ∧
      ∀ layout, List.Forall₂ (fun text item =>
        Scans layout .operand (String.toList text) item .operator closes) (items.map Prod.snd)
          (shape.map Prod.fst) := by
  induction items with
  | nil => exact ⟨[], List.forall_mem_nil _, List.forall_mem_nil _, rfl, fun _ => .nil⟩
  | cons item rest ih =>
    rw [List.forall_mem_cons] at hitems
    obtain ⟨front, hfront, hclosed, hscans⟩ := hitems.1.scans
    obtain ⟨shape, hshape, hclosedItems, hexprs, htexts⟩ := ih hitems.2
    exact ⟨(front, item.1) :: shape, List.forall_mem_cons.2 ⟨hfront, hshape⟩,
      List.forall_mem_cons.2 ⟨⟨hfront.ne_nil, hclosed⟩, hclosedItems⟩,
      congrArg (item.1 :: ·) hexprs, fun layout => .cons (hscans layout) (htexts layout)⟩

theorem startsOperand_separated (hsome : items ≠ [])
    (hitems : ∀ item ∈ items, ReadsBack item.1 1 closes item.2) :
    startsOperand (", ".intercalate (items.map Prod.snd)) = true := by
  cases items with
  | nil => exact absurd rfl hsome
  | cons item rest =>
    have hstarts := (hitems item List.mem_cons_self).starts
    cases rest with
    | nil => simpa using hstarts
    | cons next rest =>
      rw [List.map_cons, List.map_cons, String.intercalate_cons_cons]
      exact startsOperand_append (startsOperand_append hstarts _) _

theorem ReadsBack.sequence {items : List (Expr × String)} (hlength : 2 ≤ items.length)
    (hitems : ∀ item ∈ items, ReadsBack item.1 1 closes item.2) :
    ReadsBack (.sequence (items.map Prod.fst)) 0 closes
      (", ".intercalate (items.map Prod.snd)) := by
  obtain ⟨shape, hshape, hclosedItems, hexprs, htexts⟩ := exists_shape hitems
  have hlengths : shape.length = items.length := by
    simpa using congrArg List.length hexprs
  have hsome : items ≠ [] := by
    rintro rfl
    cases hlength
  have hseparated : Separated (shape.map Prod.fst) (separated (shape.map Prod.fst)) := by
    refine separated_of_ne_nil (List.ne_nil_of_length_pos ?_)
    rw [List.length_map]
    omega
  rw [← hexprs]
  refine ⟨startsOperand_separated hsome hitems, _, .sequence (hlengths ▸ hlength) hshape hseparated,
    hseparated.closed (by decide) fun item hmem =>
      (hclosedItems item hmem).2.mono (dividers_subset (Nat.zero_le 1)), fun layout => ?_⟩
  obtain ⟨_, rfl, hscans⟩ := Scans.separated (· = .operator)
    ((htexts layout).imp fun _ _ hitem => ⟨_, rfl, hitem⟩) (.inl (by simpa using hsome))
  exact hscans

theorem ReadsBack.call {callee : Expr} {items : List (Expr × String)} {text : String}
    {stops : Char → Bool} (hcallee : ReadsBack callee 16 stops text) (hopen : stops '(' = true)
    (hitems : ∀ item ∈ items, ReadsBack item.1 1 closes item.2) :
    ReadsBack (.call callee (items.map Prod.fst)) 16 anyChar
      (text ++ parenthesized (", ".intercalate (items.map Prod.snd))) := by
  obtain ⟨front, hfront, hclosed, hscans⟩ := hcallee.scans
  obtain ⟨shape, hshape, hclosedItems, hexprs, htexts⟩ := exists_shape hitems
  have hlist := argumentList_separated (shape.map Prod.fst)
  rw [← hexprs]
  refine ⟨startsOperand_append hcallee.starts _, _, .call hfront hshape hlist, ?_, fun layout => ?_⟩
  · rw [List.append_assoc]
    exact hclosed.append (closed_grouped (hlist.closed fun item hmem =>
      isArgument_of_closed (hclosedItems item hmem).1 le_rfl (hclosedItems item hmem).2))
  · obtain ⟨after, -, hinner⟩ := Scans.separated (fun _ => True)
      ((htexts layout).imp fun _ _ hitem => ⟨_, trivial, hitem⟩) (.inr trivial)
    have hgrouped := hinner.parenthesized rfl .operator
    rw [toList_parenthesized] at hgrouped
    rw [String.toList_append, toList_parenthesized, List.append_assoc]
    exact (hscans layout).append_cons hgrouped hopen

/-- The elements of an array between its brackets. -/
theorem exists_elements {elements : List (Option (Expr × String))}
    (helements : ∀ element, some element ∈ elements → ReadsBack element.1 1 closes element.2) :
    ∃ (shape : List (Option (List Lexeme × Expr))) (lexemes : List Lexeme),
      (∀ element, some element ∈ shape → Derives 1 element.1 element.2) ∧
      shape.map (Option.map Prod.snd) = elements.map (Option.map Prod.fst) ∧
      Elements (shape.map (Option.map Prod.fst)) lexemes ∧ Closed [] lexemes ∧
      ∀ layout, ∃ after, Scans layout .operand
        (Value.arrayBody (elements.map (Option.map Prod.snd))).toList lexemes after closes := by
  have hcomma : ∀ layout goal, Scans layout goal [','] [.comma] .operand anyChar :=
    fun layout goal => @Scans.divider layout "," (by decide) goal
  induction elements with
  | nil =>
    exact ⟨[], [], fun _ hmem => absurd hmem List.not_mem_nil, rfl, .none, Closed.nil [], fun _ =>
      ⟨.operand, (Scans.blank .operand rfl).mono fun _ _ => rfl⟩⟩
  | cons element rest ih =>
    obtain ⟨shape, lexemes, hshape, hexprs, hlist, hclosed, hscans⟩ :=
      ih fun other hmem => helements other (List.mem_cons_of_mem _ hmem)
    have hlater : Closed [] (Lexeme.comma :: lexemes) := .cons rfl List.not_mem_nil hclosed
    cases element with
    | none =>
      refine ⟨none :: shape, .comma :: lexemes, by simpa using hshape, by simpa using hexprs,
        .hole hlist, hlater, fun layout => ?_⟩
      obtain ⟨after, hrest⟩ := hscans layout
      cases rest with
      | nil => exact ⟨after, (hcomma layout .operand).append_any hrest⟩
      | cons next rest =>
        have hspaced := (hcomma layout .operand).append_any
          ((Scans.space .operand).append_any hrest)
        exact ⟨after, by simpa [Value.arrayBody_cons] using hspaced⟩
    | some element =>
      obtain ⟨front, hfront, hfrontClosed, hfrontScans⟩ :=
        (helements element List.mem_cons_self).scans
      have hopen : Closed [] front := hfrontClosed.mono (List.nil_subset _)
      cases rest with
      | nil =>
        refine ⟨[some (front, element.1)], front, by simpa using hfront, rfl, .last front,
          hopen, fun layout => ⟨.operator, ?_⟩⟩
        simpa [Value.arrayBody_last] using hfrontScans layout
      | cons next rest =>
        refine ⟨some (front, element.1) :: shape, front ++ .comma :: lexemes, ?_,
          by simpa using hexprs, .item front hlist, hopen.append hlater, fun layout => ?_⟩
        · intro other hmem
          rcases List.mem_cons.1 hmem with heq | hmem
          · cases heq
            exact hfront
          · exact hshape other hmem
        · obtain ⟨after, hrest⟩ := hscans layout
          have hspaced := (hcomma layout .operator).append_any
            ((Scans.space .operand).append_any hrest)
          exact ⟨after, by simpa [Value.arrayBody_cons] using
            (hfrontScans layout).append_cons hspaced rfl⟩

theorem ReadsBack.array {elements : List (Option (Expr × String))}
    (helements : ∀ element, some element ∈ elements → ReadsBack element.1 1 closes element.2) :
    ReadsBack (.array (elements.map (Option.map Prod.fst))) 17 anyChar
      (Value.arrayText (elements.map (Option.map Prod.snd))) := by
  obtain ⟨shape, lexemes, hshape, hexprs, hlist, hclosed, hscans⟩ := exists_elements helements
  rw [← hexprs]
  refine ⟨startsOperand_append rfl _, _, .array hshape hlist,
    Closed.group rfl rfl hclosed, fun layout => ?_⟩
  obtain ⟨after, hbody⟩ := hscans layout
  simpa [Value.arrayText] using hbody.squared rfl .operand

end Debundle
