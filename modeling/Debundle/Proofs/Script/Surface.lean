import Debundle.Proofs.Script.Tokens

/-!
# The surface of a text

The head of a `for` loop is divided at the first `in` that can only be the loop's own: one
outside of all brackets, and not between the question mark and the colon of a conditional
expression, where the grammar lets an `in` operator stand.  So of a text that stands in such a
head nothing matters but the signs on its surface, which is what no bracket encloses.

`Piece` says what a text contributes: tokens with matching brackets, and the signs on the surface.
-/

namespace Debundle.Lexer

/-- What can be told apart on the surface. -/
inductive Sign where
  /-- The word `in`, unless it names a property. -/
  | within
  /-- The two marks of a conditional expression. -/
  | asks | answers
  deriving DecidableEq

def ScriptToken.sign? (token : ScriptToken) : Option Sign :=
  if token.lexeme = .word "in" then if token.goal = .property then none else some .within
  else if token.lexeme = .mark "?" then some .asks
  else if token.lexeme = .mark ":" then some .answers
  else none

/-- The brackets that are open behind the tokens, if they match. -/
def nested (stack : List Bracket) (tokens : List ScriptToken) : Option (List Bracket) :=
  (tokens.map ScriptToken.lexeme).foldlM (nest []) stack

/-- The signs outside of all brackets, where some brackets are open already. -/
def signsFrom (stack : List Bracket) : List ScriptToken → List Sign
  | [] => []
  | token :: rest =>
    (if stack = [] then token.sign?.toList else []) ++
      (nest [] stack token.lexeme).elim [] fun next => signsFrom next rest

section

variable {stack next base : List Bracket} {front back tokens : List ScriptToken}
  {bracket : Bracket} {token : ScriptToken}

theorem nested_cons (hrun : nested stack (token :: tokens) = some next) :
    ∃ between, nest [] stack token.lexeme = some between ∧ nested between tokens = some next :=
  Option.bind_eq_some_iff.1 hrun

theorem nested_step (hnest : nest [] stack token.lexeme = some next) :
    nested stack (token :: tokens) = nested next tokens := by
  rw [nested, List.map_cons, List.foldlM_cons, hnest]
  rfl

/-- Where a bracket is open, a token adds nothing to the surface. -/
theorem signsFrom_step (hstack : stack ≠ []) (hnest : nest [] stack token.lexeme = some next) :
    signsFrom stack (token :: tokens) = signsFrom next tokens := by
  rw [signsFrom, if_neg hstack, hnest]
  rfl

theorem nested_append (hfront : nested stack front = some base) :
    nested stack (front ++ back) = nested base back := by
  rw [nested, List.map_append, List.foldlM_append,
    show (front.map ScriptToken.lexeme).foldlM (nest []) stack = some base from hfront]
  rfl

theorem signsFrom_append (hfront : nested stack front = some next) :
    signsFrom stack (front ++ back) = signsFrom stack front ++ signsFrom next back := by
  induction front generalizing stack with
  | nil =>
    cases hfront
    rfl
  | cons token front ih =>
    obtain ⟨between, hnest, hrest⟩ := nested_cons hfront
    simp only [List.cons_append, signsFrom, hnest, Option.elim_some, ih hrest, List.append_assoc]

/-- Inside of brackets there is no surface. -/
theorem signsFrom_inside (hrun : nested stack tokens = some next) (hbase : base ≠ []) :
    signsFrom (stack ++ base) tokens = [] := by
  induction tokens generalizing stack with
  | nil => rfl
  | cons token tokens ih =>
    obtain ⟨between, hnest, hrest⟩ := nested_cons hrun
    have hdeep : stack ++ base ≠ [] := List.append_ne_nil_of_right_ne_nil _ hbase
    rw [signsFrom, if_neg hdeep, nest_append hnest (.inl hbase)]
    exact ih hrest

end

/-- The brackets among the tokens match, and the signs are those on the surface. -/
structure Outlines (tokens : List ScriptToken) (signs : List Sign) : Prop where
  closed : Closed [] (tokens.map ScriptToken.lexeme)
  signs_eq : signsFrom [] tokens = signs

namespace Outlines

variable {tokens others : List ScriptToken} {signs more : List Sign} {bracket : Bracket}

theorem nil : Outlines [] [] :=
  ⟨Closed.nil [], rfl⟩

theorem append (hfirst : Outlines tokens signs) (hsecond : Outlines others more) :
    Outlines (tokens ++ others) (signs ++ more) := by
  refine ⟨?_, ?_⟩
  · rw [List.map_append]
    exact hfirst.closed.append hsecond.closed
  · rw [signsFrom_append hfirst.closed, hfirst.signs_eq, hsecond.signs_eq]

theorem single {token : ScriptToken} (hrole : token.lexeme.role = .plain) :
    Outlines [token] token.sign?.toList := by
  have hnest : nest [] [] token.lexeme = some [] := by simp [nest, hrole, BracketRole.nest]
  refine ⟨Closed.single hrole List.not_mem_nil, ?_⟩
  rw [signsFrom, if_pos rfl, hnest, Option.elim_some, signsFrom, List.append_nil]

theorem single_unsigned {token : ScriptToken} (hrole : token.lexeme.role = .plain)
    (hsign : token.sign? = none) : Outlines [token] [] := by
  have houtlines := single hrole
  rwa [hsign] at houtlines

/-- Tokens inside of a bracket that is open add nothing to the surface. -/
theorem inside (htokens : Outlines tokens signs) (bracket : Bracket) :
    nested [bracket] tokens = some [bracket] ∧ signsFrom [bracket] tokens = [] :=
  ⟨htokens.closed.inside [] (List.cons_ne_nil _ _),
    signsFrom_inside htokens.closed (List.cons_ne_nil bracket [])⟩

/-- What starts with an open bracket that is closed by the last token only. -/
theorem enclosed {first : ScriptToken} (hfirst : first.lexeme.role = .opens bracket)
    (hclosed : nested [bracket] tokens = some []) (hsigns : signsFrom [bracket] tokens = []) :
    Outlines (first :: tokens) [] := by
  have hnest : nest [] [] first.lexeme = some [bracket] := by rw [nest, hfirst, BracketRole.nest]
  have hplain : first.sign? = none := by
    have hword : ∀ word, first.lexeme ≠ .word word := by
      rintro word hword
      rw [hword] at hfirst
      cases hfirst
    have hmark : first.lexeme ≠ .mark "?" ∧ first.lexeme ≠ .mark ":" := by
      constructor <;> (intro hmark; rw [hmark] at hfirst; cases hfirst)
    simp [ScriptToken.sign?, hword, hmark.1, hmark.2]
  refine ⟨?_, ?_⟩
  · rw [Closed, List.map_cons, List.foldlM_cons, hnest]
    exact hclosed
  · rw [signsFrom, if_pos rfl, hplain, hnest]
    exact hsigns

theorem group {first last : ScriptToken} (hfirst : first.lexeme.role = .opens bracket)
    (hlast : last.lexeme.role = .closes bracket) (htokens : Outlines tokens signs) :
    Outlines (first :: (tokens ++ [last])) [] := by
  have hnest : nest [] [bracket] last.lexeme = some [] := by
    rw [nest, hlast, BracketRole.nest, if_pos rfl]
  obtain ⟨hrun, hsigns⟩ := htokens.inside bracket
  refine enclosed hfirst ?_ ?_
  · rw [nested_append hrun, nested_step hnest]
    rfl
  · rw [signsFrom_append hrun, hsigns, signsFrom_step (List.cons_ne_nil _ _) hnest]
    rfl

end Outlines

/-- In front of any text whose first character is one of `stops`, the text falls into tokens of
which the brackets match, with the signs on the surface. -/
def Piece (goal : Goal) (text : String) (signs : List Sign) (after : Goal)
    (stops : Char → Bool) : Prop :=
  ∃ tokens, Falls goal text.toList tokens after stops ∧ Outlines tokens signs

namespace Piece

variable {goal after later : Goal} {text more : String} {signs others : List Sign}
  {stops stops' : Char → Bool}

theorem mono (hpiece : Piece goal text signs after stops)
    (hstops : ∀ char, stops' char = true → stops char = true) :
    Piece goal text signs after stops' := by
  obtain ⟨tokens, hfalls, houtlines⟩ := hpiece
  exact ⟨tokens, hfalls.mono hstops, houtlines⟩

theorem narrow (hpiece : Piece goal text signs after anyChar) : Piece goal text signs after stops :=
  hpiece.mono fun _ _ => rfl

/-- The second text starts with a character that ends the first one. -/
theorem append (hfirst : Piece goal text signs after stops)
    (hsecond : Piece after more others later stops')
    (hjoin : more.toList.head?.any stops = true) :
    Piece goal (text ++ more) (signs ++ others) later stops' := by
  obtain ⟨tokens, hfalls, houtlines⟩ := hfirst
  obtain ⟨found, hmore, hothers⟩ := hsecond
  refine ⟨tokens ++ found, ?_, houtlines.append hothers⟩
  rw [String.toList_append]
  exact hfalls.append hmore hjoin

/-- Anything may follow the first text. -/
theorem append_any (hfirst : Piece goal text signs after anyChar)
    (hsecond : Piece after more others later stops) :
    Piece goal (text ++ more) (signs ++ others) later stops := by
  obtain ⟨tokens, hfalls, houtlines⟩ := hfirst
  obtain ⟨found, hmore, hothers⟩ := hsecond
  refine ⟨tokens ++ found, ?_, houtlines.append hothers⟩
  rw [String.toList_append]
  exact hfalls.append_any hmore

theorem blank (goal : Goal) (htext : text.toList.all isBlank = true) :
    Piece goal text [] goal anyChar :=
  ⟨[], Falls.blank goal htext, .nil⟩

theorem space (goal : Goal) : Piece goal " " [] goal anyChar :=
  blank goal rfl

theorem word (hword : isWord text = true) (hpermits : goal.permits (.word text) after = true) :
    Piece goal text (ScriptToken.sign? ⟨goal, .word text⟩).toList after isWordEnd :=
  ⟨_, Falls.word hword hpermits, .single rfl⟩

/-- A mark that is no bracket. -/
theorem mark (hmark : text ∈ marks) (hcomment : text ∉ commentMarks)
    (hgoal : goal ≠ .operand ∨ text ∉ slashMarks) (hrole : (Lexeme.mark text).role = .plain)
    (hafter : goal.after (.mark text) = after) :
    Piece goal text (ScriptToken.sign? ⟨goal, .mark text⟩).toList after (markStops text) := by
  have hpermits : goal.permits (.mark text) after = true := by
    rw [Goal.permits, hrole, hafter]
    simp
  exact ⟨_, Falls.mark hmark hcomment hgoal hpermits, .single hrole⟩

theorem literal (hliteral : isLiteral text = true) :
    Piece .operand text [] .operator (endsBefore text) := by
  have hsign : ScriptToken.sign? ⟨.operand, literalLexeme text⟩ = none := by
    rw [literalLexeme]
    split
    · rename_i hconstant
      have hwords : ∀ word ∈ constantWords, word ≠ "in" := by decide
      simp [ScriptToken.sign?, hwords text hconstant]
    · simp [ScriptToken.sign?]
  exact ⟨_, Falls.literal hliteral, .single_unsigned (role_literalLexeme hliteral) hsign⟩

/-- A lexeme between two operands, with a space on each side. -/
theorem spaced {lexeme : Lexeme} (hspaced : isSpaced lexeme = true) :
    Piece .operator (" " ++ lexeme.text ++ " ") (ScriptToken.sign? ⟨.operator, lexeme⟩).toList
      .operand anyChar := by
  have hlexeme : Piece .operator lexeme.text (ScriptToken.sign? ⟨.operator, lexeme⟩).toList .operand
      (· == ' ') := by
    cases lexeme with
    | word text =>
      simp only [isSpaced, Bool.and_eq_true, beq_iff_eq] at hspaced
      have hpermits : Goal.permits .operator (.word text) .operand = true := by
        by_cases hof : text = "of"
        · rw [hof]
          rfl
        · rw [Goal.permits, ← goalAfter_of_ne (by simpa using hof), hspaced.2]
          rfl
      apply (word hspaced.1.1 hpermits).mono
      intro char hchar
      rw [beq_iff_eq.1 hchar]
      decide
    | literal text => cases hspaced
    | mark text =>
      simp only [isSpaced, Bool.and_eq_true, decide_eq_true_eq, beq_iff_eq] at hspaced
      obtain ⟨⟨⟨hmark, hcomment⟩, hrole⟩, hafter⟩ := hspaced
      apply (mark hmark hcomment (.inl (by decide)) hrole hafter).mono
      intro char hchar
      rw [beq_iff_eq.1 hchar]
      exact markStops_space text
  have hpiece := ((space .operator).append_any hlexeme).append (space .operand) rfl
  rwa [List.nil_append, List.append_nil] at hpiece

/-- A comma or a semicolon, behind which an expression or a statement starts. -/
theorem divider (hmark : text ∈ [",", ";"]) (goal : Goal) :
    Piece goal text [] .operand anyChar := by
  have hplain : ∀ mark ∈ [",", ";"], mark ∈ singleMarks ∧ (Lexeme.mark mark).role = .plain ∧
      mark ≠ "?" ∧ mark ≠ ":" := by decide
  obtain ⟨hsingle, hrole, hasks, hanswers⟩ := hplain text hmark
  have hpermits : goal.permits (.mark text) .operand = true := by
    obtain rfl | hmark := List.mem_cons.1 hmark
    · rfl
    · cases List.mem_singleton.1 hmark
      rfl
  have hsign : ScriptToken.sign? ⟨goal, .mark text⟩ = none := by
    simp [ScriptToken.sign?, hasks, hanswers]
  exact ⟨_, Falls.singleMark hsingle hpermits, .single_unsigned hrole hsign⟩

/-- A text in brackets. -/
theorem enclosed (bracket : Bracket) (goal : Goal) (hbracket : bracket ≠ .template)
    (hinner : Piece .operand text signs after stops)
    (hstops : (closing bracket).toList.head?.any stops = true)
    (hlater : after.permits (.mark (closing bracket)) later = true) :
    Piece goal (opening bracket ++ text ++ closing bracket) [] later anyChar := by
  obtain ⟨-, -, -, -, -, hopening, hclosing, hopens, hcloses⟩ := opening_closing hbracket
  have hopen : goal.permits (.mark (opening bracket)) .operand = true := by
    rw [Goal.permits, hopens]
    rfl
  obtain ⟨tokens, hfalls, houtlines⟩ := hinner
  refine ⟨⟨goal, .mark (opening bracket)⟩ :: (tokens ++ [⟨after, .mark (closing bracket)⟩]), ?_,
    .group hopens hcloses houtlines⟩
  rw [String.toList_append, String.toList_append, List.append_assoc]
  exact (Falls.singleMark hopening hopen).append_any
    (hfalls.append (Falls.singleMark hclosing hlater) hstops)

theorem parenthesized (goal : Goal) (hinner : Piece .operand text signs after stops)
    (hstops : stops ')' = true) (hlater : later ≠ .property) :
    Piece goal (parenthesized text) [] later anyChar :=
  enclosed .paren goal Bracket.noConfusion hinner hstops (bne_iff_ne.2 hlater)

theorem squared (goal : Goal) (hinner : Piece .operand text signs after stops)
    (hstops : stops ']' = true) : Piece goal ("[" ++ text ++ "]") [] .operator anyChar :=
  enclosed .square goal Bracket.noConfusion hinner hstops rfl

theorem braced (goal : Goal) (hinner : Piece .operand text signs after stops)
    (hstops : stops '\x7d' = true) (hlater : later ≠ .property) :
    Piece goal ("\x7b" ++ text ++ "\x7d") [] later anyChar :=
  enclosed .brace goal Bracket.noConfusion hinner hstops (bne_iff_ne.2 hlater)

/-- A text on lines of its own in braces. -/
theorem bracedLines (goal : Goal) {pad : String} (hinner : Piece .operand text signs after stops)
    (hstops : stops '\n' = true) (hpad : pad.toList.all isBlank = true)
    (hlater : later ≠ .property) :
    Piece goal ("\x7b\n" ++ text ++ "\n" ++ pad ++ "\x7d") [] later anyChar := by
  have hlines : Piece .operand ("\n" ++ text ++ "\n" ++ pad) ([] ++ signs ++ [] ++ []) after
      anyChar :=
    (((blank .operand rfl).append_any hinner).append
      (show Piece after "\n" [] after anyChar from blank after rfl)
      hstops).append_any (blank after hpad)
  have htext : "\x7b\n" ++ text ++ "\n" ++ pad ++ "\x7d" =
      "\x7b" ++ ("\n" ++ text ++ "\n" ++ pad) ++ "\x7d" := by
    rw [show "\x7b\n" = "\x7b" ++ "\n" from rfl]
    simp only [String.append_assoc]
  rw [htext]
  exact hlines.braced goal rfl hlater

end Piece

/-! ### Lists -/

/-- What may follow an expression, whatever its text is. -/
def ends (char : Char) : Bool :=
  enders.contains char

theorem endsBefore_of_ends {text : String} {char : Char} (hends : ends char = true) :
    endsBefore text char = true :=
  Bool.or_eq_true_iff.2 (.inl hends)

/-- A text of statements, which need nothing behind them. -/
def IsCode (text : String) : Prop :=
  ∃ signs, Piece .operand text signs .operand anyChar

/-- Nothing is asked of what is expected behind a text. -/
def Anywhere (_ : Goal) : Prop :=
  True

/-- A text that is divided from the next one by a comma. -/
def IsItem (ending : Goal → Prop) (text : String) (signs : List Sign) : Prop :=
  ∃ after, ending after ∧ Piece .operand text signs after ends

theorem IsItem.anywhere {ending : Goal → Prop} {text : String} {signs : List Sign}
    (hitem : IsItem ending text signs) : IsItem Anywhere text signs := by
  obtain ⟨after, -, hpiece⟩ := hitem
  exact ⟨after, trivial, hpiece⟩

/-- A comma with blanks behind it. -/
structure IsComma (separator : String) : Prop where
  piece : ∀ goal, Piece goal separator [] .operand anyChar
  starts : separator.toList.head?.any ends = true

theorem isComma_space : IsComma ", " where
  piece goal := show Piece goal ("," ++ " ") ([] ++ []) .operand anyChar from
    (Piece.divider (by decide) goal).append_any (Piece.space .operand)
  starts := rfl

theorem isComma_lineBreak : IsComma ",\n" where
  piece goal := show Piece goal ("," ++ "\n") ([] ++ []) .operand anyChar from
    (Piece.divider (by decide) goal).append_any (Piece.blank .operand (by decide))
  starts := rfl

namespace Piece

variable {separator : String} {texts : List String}

theorem separated {ending : Goal → Prop} {signs : List (List Sign)} (hcomma : IsComma separator)
    (hitems : List.Forall₂ (IsItem ending) texts signs) (hne : texts ≠ []) :
    IsItem ending (separator.intercalate texts) signs.flatten := by
  induction hitems with
  | nil => exact absurd rfl hne
  | @cons text sign texts signs hitem hrest ih =>
    cases hrest with
    | nil =>
      rw [List.flatten_singleton, String.intercalate_singleton]
      exact hitem
    | @cons next _ texts _ _ _ =>
      obtain ⟨first, -, hfirst⟩ := hitem
      obtain ⟨after, hending, hafter⟩ := ih (List.cons_ne_nil _ _)
      have hpiece := (hfirst.append (hcomma.piece first) hcomma.starts).append_any hafter
      rw [List.append_nil] at hpiece
      rw [String.intercalate_cons_cons, List.flatten_cons]
      exact ⟨after, hending, hpiece⟩

/-- A list in brackets may be empty. -/
theorem exists_separated (hcomma : IsComma separator)
    (hitems : ∀ text ∈ texts, ∃ signs, IsItem Anywhere text signs) :
    ∃ signs, IsItem Anywhere (separator.intercalate texts) signs := by
  by_cases hne : texts = []
  · rw [hne]
    exact ⟨[], .operand, trivial, (blank .operand rfl).narrow⟩
  · choose! signs hsigns using hitems
    exact ⟨_, separated hcomma (List.forall₂_map_right_iff.2 (List.forall₂_same.2 hsigns)) hne⟩

/-- Statements on lines of their own. -/
theorem isCode_lines (hlines : ∀ text ∈ texts, IsCode text) : IsCode ("\n".intercalate texts) := by
  induction texts with
  | nil => exact ⟨[], blank .operand rfl⟩
  | cons text texts ih =>
    rw [List.forall_mem_cons] at hlines
    obtain ⟨first, hfirst⟩ := hlines.1
    cases texts with
    | nil =>
      rw [String.intercalate_singleton]
      exact hlines.1
    | cons next texts =>
      obtain ⟨rest, hrest⟩ := ih hlines.2
      rw [String.intercalate_cons_cons]
      exact ⟨_, (hfirst.append_any (blank .operand rfl)).append_any hrest⟩

end Piece

/-! ### Templates -/

/-- From a brace behind an expression up to the end of the template. -/
theorem exists_falls_templateTail {parts : List (String × String)} {raw : List Char}
    (hraw : isPiece raw = true)
    (hparts : ∀ part ∈ parts, isPiece part.2.toList = true ∧
      ∃ signs, IsItem Anywhere part.1 signs) (goal : Goal) :
    ∃ tokens, Falls goal
        ('\x7d' :: (raw ++ templateTail (parts.map fun part => (part.1.toList, part.2.toList))))
        tokens .operator anyChar ∧
      nested [.template] tokens = some [] ∧ signsFrom [.template] tokens = [] := by
  induction parts generalizing raw goal with
  | nil =>
    have hrole : (Lexeme.literal (.ofList ('\x7d' :: raw ++ ['\x60']))).role =
        .closes .template := (role_piece _ _ rfl).trans rfl
    have hnest : nest [] [.template] (.literal (.ofList ('\x7d' :: raw ++ ['\x60']))) =
        some [] := by
      rw [nest, hrole]
      rfl
    have hpermits : goal.permits (.literal (.ofList ('\x7d' :: raw ++ ['\x60'])))
        .operator = true := by
      rw [Goal.permits, hrole]
      rfl
    exact ⟨_, Falls.piece (.inr rfl) (.inl rfl) hraw hpermits, nested_step hnest,
      signsFrom_step (List.cons_ne_nil _ _) hnest⟩
  | cons part parts ih =>
    rw [List.forall_mem_cons] at hparts
    obtain ⟨⟨hnext, signs, first, -, inner, hinner, houtlines⟩, hrest⟩ := hparts
    obtain ⟨tokens, hfalls, hclosed, hsigns⟩ := ih hnext hrest first
    have hrole : (Lexeme.literal (.ofList ('\x7d' :: raw ++ ['$', '\x7b']))).role =
        .divides := (role_piece _ _ rfl).trans rfl
    have hnest : nest [] [.template] (.literal (.ofList ('\x7d' :: raw ++ ['$', '\x7b']))) =
        some [.template] := by
      rw [nest, hrole]
      rfl
    have hpermits : goal.permits (.literal (.ofList ('\x7d' :: raw ++ ['$', '\x7b'])))
        .operand = true := by
      rw [Goal.permits, hrole]
      rfl
    have hwhole := (Falls.piece (.inr rfl) (.inr rfl) hraw hpermits).append_any
      (hinner.append hfalls rfl)
    obtain ⟨hrun, hinside⟩ := houtlines.inside .template
    refine ⟨⟨goal, .literal (.ofList ('\x7d' :: raw ++ ['$', '\x7b']))⟩ :: (inner ++ tokens),
      ?_, ?_, ?_⟩
    · simpa [templateTail] using hwhole
    · rw [nested_step hnest, nested_append hrun, hclosed]
    · rw [signsFrom_step (List.cons_ne_nil _ _) hnest, signsFrom_append hrun, hinside, hsigns]
      rfl

/-- A template is an expression of which nothing shows on the surface. -/
theorem Piece.template {text raw : String} {parts : List (String × String)}
    (htext : text.toList = '\x60' :: (raw.toList ++
      templateTail (parts.map fun part => (part.1.toList, part.2.toList))))
    (hraw : isPiece raw.toList = true)
    (hparts : ∀ part ∈ parts, isPiece part.2.toList = true ∧
      ∃ signs, IsItem Anywhere part.1 signs) (goal : Goal) :
    Piece goal text [] .operator anyChar := by
  rw [Piece, htext]
  cases parts with
  | nil =>
    have hrole : (Lexeme.literal (.ofList ('\x60' :: raw.toList ++ ['\x60']))).role = .plain :=
      (role_piece _ _ rfl).trans rfl
    have hpermits : goal.permits (.literal (.ofList ('\x60' :: raw.toList ++ ['\x60'])))
        .operator = true := by
      rw [Goal.permits, hrole]
      rfl
    have hsign : ScriptToken.sign? ⟨goal, .literal (.ofList ('\x60' :: raw.toList ++ ['\x60']))⟩ =
        none := by
      simp [ScriptToken.sign?]
    exact ⟨_, Falls.piece (.inl rfl) (.inl rfl) hraw hpermits, .single_unsigned hrole hsign⟩
  | cons part parts =>
    rw [List.forall_mem_cons] at hparts
    obtain ⟨⟨hnext, signs, first, -, inner, hinner, houtlines⟩, hrest⟩ := hparts
    obtain ⟨tokens, hfalls, hclosed, hsigns⟩ := exists_falls_templateTail hnext hrest first
    have hrole : (Lexeme.literal (.ofList ('\x60' :: raw.toList ++ ['$', '\x7b']))).role =
        .opens .template := (role_piece _ _ rfl).trans rfl
    have hpermits : goal.permits (.literal (.ofList ('\x60' :: raw.toList ++ ['$', '\x7b'])))
        .operand = true := by
      rw [Goal.permits, hrole]
      rfl
    obtain ⟨hrun, hinside⟩ := houtlines.inside .template
    have hwhole := (Falls.piece (.inl rfl) (.inr rfl) hraw hpermits).append_any
      (hinner.append hfalls rfl)
    refine ⟨⟨goal, .literal (.ofList ('\x60' :: raw.toList ++ ['$', '\x7b']))⟩ ::
      (inner ++ tokens), ?_, .enclosed hrole ?_ ?_⟩
    · simpa [templateTail] using hwhole
    · exact (nested_append hrun).trans hclosed
    · rw [signsFrom_append hrun, hinside, hsigns]
      rfl

end Debundle.Lexer
