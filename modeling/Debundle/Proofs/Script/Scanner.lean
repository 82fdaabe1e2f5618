import Debundle.Proofs.Script.Brackets
import Debundle.Proofs.Script.Lexing

/-!
# Lexemes of whole texts

Two things have to be remembered along a text besides what is expected next.  A brace may end
an expression inside a template, and behind the head of a statement a statement starts, which
may begin with a regular expression.  Between the lexemes of a script stand line breaks, between
those of an expression on one line none.

`Scans` says what a piece of text contributes to the text that it stands in: its lexemes, as long
as what follows does not run into the last one.  Pieces are put together by `Scans.append`.
-/

namespace Debundle.Lexer

inductive Layout where
  | line
  | script

/-- A character that stands between lexemes. -/
def Layout.isBlank : Layout → Char → Bool
  | .line => spaces.contains
  | .script => Lexer.isBlank

variable {char : Char} {goal : Goal} {lexeme : Lexeme} {text : String} {layout : Layout}
  {context : Context} {bracket : Bracket}

theorem Layout.isBlank_eq_false (layout : Layout) (hblank : Lexer.isBlank char = false) :
    layout.isBlank char = false := by
  cases layout with
  | line => exact (Bool.or_eq_false_iff.1 hblank).1
  | script => exact hblank

/-- The words with a head in parentheses behind them, and a statement behind that. -/
def headWords : List String :=
  ["if", "for", "while", "with"]

/-- What is known in front of a lexeme. -/
structure Context where
  goal : Goal
  /-- Whether the next parenthesis opens the head of a statement. -/
  isHead : Bool
  /-- The open brackets and what is expected behind them, the innermost first. -/
  brackets : List (Bracket × Goal)

/-- What is expected behind a lexeme.  Where an operator may stand, `of` is no name. -/
def goalAfter (goal : Goal) (lexeme : Lexeme) : Goal :=
  if goal = .operator ∧ lexeme = .word "of" then .operand else goal.after lexeme

theorem goalAfter_of_ne (hne : lexeme ≠ .word "of") : goalAfter goal lexeme = goal.after lexeme :=
  if_neg fun hof => hne hof.2

namespace Context

/-- What is expected behind a bracket that is opened here. -/
def goalBehind (context : Context) : Bracket → Goal
  | .paren => if context.isHead then .operand else .operator
  | .square | .template => .operator
  | .brace => .operand

/-- What is known behind a lexeme. -/
def after (context : Context) (lexeme : Lexeme) : Context :=
  match lexeme.role with
  | .opens bracket =>
    { goal := .operand
      isHead := false
      brackets := (bracket, context.goalBehind bracket) :: context.brackets }
  | .closes _ =>
    { goal := (context.brackets.head?.map Prod.snd).getD .operator
      isHead := false
      brackets := context.brackets.tail }
  | .divides => { context with goal := .operand, isHead := false }
  | .plain =>
    { context with
      goal := goalAfter context.goal lexeme
      isHead := context.goal != .property && headWords.any fun word => lexeme == .word word }

/-- Whether a brace would end an expression in a template. -/
def isInTemplate (context : Context) : Bool :=
  context.brackets.head?.any fun bracket => bracket.1 == .template

end Context

/-- Goes on with a piece of a template up to its end or the next expression. -/
def templateCut? (seen : List Char) : List Char → Option Cut
  | [] => none
  | '\x60' :: rest => some ⟨.literal (String.ofList (seen ++ ['\x60'])), rest⟩
  | '$' :: '\x7b' :: rest => some ⟨.literal (String.ofList (seen ++ ['$', '\x7b'])), rest⟩
  | '\\' :: char :: rest => templateCut? (seen ++ ['\\', char]) rest
  | char :: rest => templateCut? (seen ++ [char]) rest

/-- The first lexeme of a text that does not start with a blank. -/
def Context.cut? (context : Context) (char : Char) (rest : List Char) : Option Cut :=
  if char == '\x60' || (char == '\x7d' && context.isInTemplate) then templateCut? [char] rest
  else Lexer.cut? context.goal char rest

theorem length_templateCut_le {seen chars : List Char} {cut : Cut}
    (hcut : templateCut? seen chars = some cut) : cut.rest.length ≤ chars.length := by
  fun_induction templateCut? seen chars with
  | case1 => cases hcut
  | case2 seen rest =>
    cases hcut
    exact Nat.le_succ _
  | case3 seen rest =>
    cases hcut
    exact Nat.le_add_right _ 2
  | case4 seen char rest ih => exact Nat.le_trans (ih hcut) (Nat.le_add_right _ 2)
  | case5 seen char rest _ _ _ ih => exact Nat.le_trans (ih hcut) (Nat.le_succ _)

theorem Context.length_cut_lt {context : Context} {char : Char} {rest : List Char} {cut : Cut}
    (hcut : context.cut? char rest = some cut) : cut.rest.length < (char :: rest).length := by
  unfold Context.cut? at hcut
  split at hcut
  · exact Nat.lt_succ_of_le (length_templateCut_le hcut)
  · exact Lexer.length_cut_lt hcut

/-- The lexemes of a text behind which a context is known. -/
def lexFrom (layout : Layout) (context : Context) (chars : List Char) : Option (List Lexeme) :=
  match chars with
  | [] => some []
  | char :: rest =>
    if layout.isBlank char then lexFrom layout context rest
    else
      match _ : context.cut? char rest with
      | none => none
      | some cut => (lexFrom layout (context.after cut.lexeme) cut.rest).map (cut.lexeme :: ·)
termination_by chars.length
decreasing_by
  · exact Nat.lt_succ_self _
  · exact Context.length_cut_lt (by assumption)

/-- The lexemes of a text on one line. -/
def lex (goal : Goal) (chars : List Char) : Option (List Lexeme) :=
  lexFrom .line ⟨goal, false, []⟩ chars

/-- The lexemes of a text that stands alone. -/
def lexemes? (text : String) : Option (List Lexeme) :=
  lexFrom .script ⟨.operand, false, []⟩ text.toList

section LexFrom

variable {layout : Layout} {context : Context} {char : Char} {seen rest chars : List Char}
  {lexeme : Lexeme} {stops : Char → Bool}

theorem lexFrom_blank (hblank : layout.isBlank char = true) :
    lexFrom layout context (char :: rest) = lexFrom layout context rest := by
  rw [lexFrom, if_pos hblank]

theorem lexFrom_cut (hblank : isBlank char = false)
    (hcut : context.cut? char rest = some ⟨lexeme, chars⟩) :
    lexFrom layout context (char :: rest) =
      (lexFrom layout (context.after lexeme) chars).map (lexeme :: ·) := by
  rw [lexFrom, layout.isBlank_eq_false hblank, if_neg Bool.false_ne_true]
  split
  · rename_i hnone
    rw [hcut] at hnone
    cases hnone
  · rename_i cut hsome
    rw [hcut] at hsome
    cases hsome
    rfl

/-- Outside of templates the lexemes are those of expressions. -/
theorem lexFrom_of_cuts (hcuts : Cuts context.goal char seen lexeme stops)
    (htemplate : char ≠ '\x60') (hbrace : char = '\x7d' → context.isInTemplate = false)
    (hrest : ∀ next ∈ rest.head?, stops next = true) :
    lexFrom layout context (char :: seen ++ rest) =
      (lexFrom layout (context.after lexeme) rest).map (lexeme :: ·) := by
  refine lexFrom_cut hcuts.not_blank ?_
  have hplain : (char == '\x60' || (char == '\x7d' && context.isInTemplate)) = false := by
    rw [Bool.or_eq_false_iff, Bool.and_eq_false_imp, beq_eq_false_iff_ne, beq_iff_eq]
    exact ⟨htemplate, hbrace⟩
  rw [Context.cut?, hplain, if_neg Bool.false_ne_true]
  exact hcuts.cut?_eq rest hrest

end LexFrom

theorem Context.after_plain {brackets : List (Bracket × Goal)} (hrole : lexeme.role = .plain)
    (hhead : goal = .property ∨ ∀ word ∈ headWords, lexeme ≠ .word word) :
    Context.after ⟨goal, false, brackets⟩ lexeme = ⟨goalAfter goal lexeme, false, brackets⟩ := by
  have hnone : (goal != .property && headWords.any fun word => lexeme == .word word) = false := by
    obtain rfl | hhead := hhead
    · rfl
    · rw [Bool.and_eq_false_imp]
      intro _
      rw [List.any_eq_false]
      exact fun word hmem hsame => hhead word hmem (beq_iff_eq.1 hsame)
  rw [Context.after, hrole]
  exact congrArg (Context.mk _ · _) hnone

/-- No literal but a piece of a template starts with a backtick or a brace. -/
theorem role_of_scanned {scan : Scan} (hscanned : scanned? .operand text.toList = some scan) :
    (Lexeme.literal text).role = .plain := by
  cases htext : text.toList with
  | nil => simp [Lexeme.role, htext]
  | cons char rest =>
    rw [htext] at hscanned
    have hchar : char ≠ '\x60' ∧ char ≠ '\x7d' := by
      constructor <;> (rintro rfl; cases hscanned)
    simp only [Lexeme.role, htext, List.head?_cons]
    split
    · rename_i hhead _
      exact absurd (Option.some.inj hhead) hchar.1
    · rename_i hhead _
      exact absurd (Option.some.inj hhead) hchar.2
    · rename_i hhead _
      exact absurd (Option.some.inj hhead) hchar.2
    · rfl

theorem role_literalLexeme (hliteral : isLiteral text = true) :
    (literalLexeme text).role = .plain := by
  rw [literalLexeme]
  split
  · rfl
  · obtain ⟨scan, hscanned, -⟩ := exists_scan_of_isLiteral hliteral ‹_›
    exact role_of_scanned hscanned

/-- In front of any text whose first character is one of `stops`, the characters are read as
the lexemes, and the text is read as if it stood behind them. -/
def Scans (layout : Layout) (goal : Goal) (chars : List Char) (lexemes : List Lexeme)
    (after : Goal) (stops : Char → Bool) : Prop :=
  ∀ brackets rest, (∀ char ∈ rest.head?, stops char = true) →
    lexFrom layout ⟨goal, false, brackets⟩ (chars ++ rest) =
      (lexFrom layout ⟨after, false, brackets⟩ rest).map (lexemes ++ ·)

/-- Lexemes that stand between two operands, with a space on each side. -/
def isSpaced : Lexeme → Bool
  | .mark text => text ∈ marks && text ∉ commentMarks && (Lexeme.mark text).role == .plain &&
    Goal.after .operator (.mark text) == .operand
  | .word text => isWord text && text ∉ headWords && goalAfter .operator (.word text) == .operand
  | .literal _ => false

namespace Scans

variable {layout : Layout} {goal after later : Goal} {chars more inner : List Char}
  {lexemes others : List Lexeme} {stops stops' : Char → Bool}

theorem lexFrom_eq (hscans : Scans layout goal chars lexemes after stops) :
    lexFrom layout ⟨goal, false, []⟩ chars = some lexemes := by
  have hwhole := hscans [] [] (fun _ hhead => by cases hhead)
  rw [List.append_nil, lexFrom, Option.map_some, List.append_nil] at hwhole
  exact hwhole

variable {char : Char}

theorem lexFrom_cons (hscans : Scans layout goal chars lexemes after stops)
    (hchar : stops char = true) (brackets : List (Bracket × Goal)) (rest : List Char) :
    lexFrom layout ⟨goal, false, brackets⟩ (chars ++ char :: rest) =
      (lexFrom layout ⟨after, false, brackets⟩ (char :: rest)).map (lexemes ++ ·) :=
  hscans brackets _ fun _ hhead => Option.some.inj hhead ▸ hchar

theorem mono (hscans : Scans layout goal chars lexemes after stops)
    (hstops : ∀ char, stops' char = true → stops char = true) :
    Scans layout goal chars lexemes after stops' :=
  fun brackets rest hrest => hscans brackets rest fun char hchar => hstops char (hrest char hchar)

theorem append (hfirst : Scans layout goal chars lexemes after stops)
    (hsecond : Scans layout after more others later stops')
    (hjoin : ∀ rest, (∀ char ∈ rest.head?, stops' char = true) →
      ∀ char ∈ (more ++ rest).head?, stops char = true) :
    Scans layout goal (chars ++ more) (lexemes ++ others) later stops' := by
  intro brackets rest hrest
  rw [List.append_assoc, hfirst brackets _ (hjoin rest hrest), hsecond brackets rest hrest,
    Option.map_map]
  congr 1
  funext found
  exact (List.append_assoc _ _ _).symm

/-- The text behind the first piece starts with a character that ends the piece. -/
theorem append_cons (hfirst : Scans layout goal chars lexemes after stops)
    (hsecond : Scans layout after (char :: more) others later stops') (hjoin : stops char = true) :
    Scans layout goal (chars ++ char :: more) (lexemes ++ others) later stops' :=
  hfirst.append hsecond fun _ _ _ hhead => Option.some.inj hhead ▸ hjoin

/-- Anything may follow the first piece. -/
theorem append_any (hfirst : Scans layout goal chars lexemes after anyChar)
    (hsecond : Scans layout after more others later stops) :
    Scans layout goal (chars ++ more) (lexemes ++ others) later stops :=
  hfirst.append hsecond fun _ _ _ _ => rfl

theorem blank (goal : Goal) (hchars : chars.all layout.isBlank = true) :
    Scans layout goal chars [] goal anyChar := by
  intro brackets rest _
  induction chars with
  | nil => simp
  | cons char chars ih =>
    rw [List.all_cons, Bool.and_eq_true] at hchars
    rw [List.cons_append, lexFrom_blank hchars.1]
    exact ih hchars.2

theorem space (goal : Goal) : Scans layout goal [' '] [] goal anyChar :=
  blank goal (by cases layout <;> decide)

/-- One lexeme that is no bracket and no word with a head. -/
theorem of_cuts {seen : List Char} {lexeme : Lexeme} (hcuts : Cuts goal char seen lexeme stops)
    (hrole : lexeme.role = .plain)
    (hhead : goal = .property ∨ ∀ word ∈ headWords, lexeme ≠ .word word)
    (hchar : char ≠ '\x60' ∧ char ≠ '\x7d') :
    Scans layout goal (char :: seen) [lexeme] (goalAfter goal lexeme) stops := by
  intro brackets rest hrest
  rw [lexFrom_of_cuts hcuts hchar.1 (fun hbrace => absurd hbrace hchar.2) hrest,
    Context.after_plain hrole hhead]
  rfl

theorem word {text : String} (hword : isWord text = true)
    (hhead : goal = .property ∨ text ∉ headWords) :
    Scans layout goal text.toList [.word text] (goalAfter goal (.word text)) isWordEnd := by
  obtain ⟨char, seen, htext, hchar, hcuts⟩ := exists_cuts_of_isWord hword goal
  rw [htext]
  refine of_cuts hcuts rfl (hhead.imp_right fun hnone word hmem hsame => ?_)
    (not_template_of_wordChar hchar)
  cases hsame
  exact hnone hmem

theorem name {text : String} (hword : isWord text = true) (hreserved : text ∉ reservedWords) :
    Scans layout .operand text.toList [.word text] .operator isWordEnd := by
  have hheads : headWords ⊆ reservedWords := by decide
  have hafter : goalAfter .operand (.word text) = .operator :=
    (if_neg fun hof => absurd hof.1 (by decide)).trans (if_pos (.inr (.inl hreserved)))
  rw [← hafter]
  exact word hword (.inr fun hmem => hreserved (hheads hmem))

theorem mark {text : String} (hmark : text ∈ marks) (hcomment : text ∉ commentMarks)
    (hgoal : goal ≠ .operand ∨ text ∉ slashMarks) (hrole : (Lexeme.mark text).role = .plain) :
    Scans layout goal text.toList [.mark text] (goal.after (.mark text)) (markStops text) := by
  have hheads : ∀ text ∈ marks, (Lexeme.mark text).role = .plain →
      '\x60' ∉ text.toList.head? ∧ '\x7d' ∉ text.toList.head? := by decide
  obtain ⟨char, seen, htext, hcuts⟩ := exists_cuts_of_mark hmark hcomment hgoal
  have hhead := hheads text hmark hrole
  rw [htext] at hhead ⊢
  rw [← goalAfter_of_ne (show Lexeme.mark text ≠ .word "of" from Lexeme.noConfusion)]
  refine of_cuts hcuts hrole (.inr fun word _ => Lexeme.noConfusion) ?_
  exact ⟨fun heq => hhead.1 (heq ▸ rfl), fun heq => hhead.2 (heq ▸ rfl)⟩

theorem literal {text : String} (hliteral : isLiteral text = true) :
    Scans layout .operand text.toList [literalLexeme text] .operator (endsBefore text) := by
  obtain ⟨char, seen, htext, hchar, hcuts⟩ := exists_cuts_of_literal hliteral
  have hafter : goalAfter .operand (literalLexeme text) = .operator := by
    have hconstants : ∀ word ∈ constantWords, goalAfter .operand (.word word) = .operator := by
      decide
    unfold literalLexeme
    split
    · exact hconstants text ‹_›
    · rfl
  have hhead : ∀ word ∈ headWords, literalLexeme text ≠ .word word := by
    have hheads : ∀ word ∈ headWords, word ∉ constantWords := by decide
    intro word hmem hsame
    unfold literalLexeme at hsame
    split at hsame
    · cases hsame
      exact hheads text hmem ‹_›
    · cases hsame
  rw [htext, ← hafter]
  exact of_cuts hcuts (role_literalLexeme hliteral) (.inr hhead) hchar

/-- An operator with a space on each side. -/
theorem spaced {lexeme : Lexeme} (hspaced : isSpaced lexeme = true) :
    Scans layout .operator (' ' :: lexeme.text.toList ++ [' ']) [lexeme] .operand anyChar := by
  have hlexeme : Scans layout .operator lexeme.text.toList [lexeme] .operand (· == ' ') := by
    cases lexeme with
    | word text =>
      simp only [isSpaced, Bool.and_eq_true, beq_iff_eq, decide_eq_true_eq] at hspaced
      obtain ⟨⟨hword, hhead⟩, hafter⟩ := hspaced
      rw [← hafter]
      refine (word hword (.inr hhead)).mono fun char hchar => ?_
      rw [beq_iff_eq.1 hchar]
      decide
    | literal text => cases hspaced
    | mark text =>
      simp only [isSpaced, Bool.and_eq_true, decide_eq_true_eq, beq_iff_eq] at hspaced
      obtain ⟨⟨⟨hmark, hcomment⟩, hrole⟩, hafter⟩ := hspaced
      rw [← hafter]
      refine (mark hmark hcomment (.inl Goal.noConfusion) hrole).mono fun char hchar => ?_
      rw [beq_iff_eq.1 hchar]
      exact markStops_space text
  exact ((space .operator).append_any hlexeme).append_cons (space .operand) rfl

end Scans

/-- Marks of one character that end where they end, whatever follows. -/
def singleMarks : List String :=
  ["(", ")", "[", "]", "\x7b", "\x7d", ";", ","]

theorem lexFrom_singleMark {mark : String} {rest : List Char} (hmark : mark ∈ singleMarks)
    (hchar : mark.toList = [char]) (hbrace : char = '\x7d' → context.isInTemplate = false) :
    lexFrom layout context (char :: rest) =
      (lexFrom layout (context.after (.mark mark)) rest).map (.mark mark :: ·) := by
  have hsingle : ∀ mark ∈ singleMarks, mark ∈ marks ∧ mark ∉ commentMarks ∧
      mark ∉ slashMarks ∧ continuations mark = [] ∧ mark ≠ "." ∧
      mark.toList.head? ≠ some '\x60' := by
    decide
  obtain ⟨hmem, hcomment, hslash, hnone, hpoint, htemplate⟩ := hsingle mark hmark
  obtain ⟨_, _, htext, hcuts⟩ := @exists_cuts_of_mark _ context.goal hmem hcomment (.inr hslash)
  cases hchar.symm.trans htext
  rw [hchar] at htemplate
  refine lexFrom_of_cuts hcuts (fun heq => htemplate (heq ▸ rfl)) hbrace fun next _ => ?_
  simp [markStops, hnone, hpoint]

/-- A comma or a semicolon is followed by what an expression or a statement starts with. -/
theorem Scans.divider {layout : Layout} {mark : String} (hmark : mark ∈ [",", ";"])
    (goal : Goal) : Scans layout goal mark.toList [.mark mark] .operand anyChar := by
  obtain ⟨hmem, hrole, char, hchar, hbrace, hafter⟩ : mark ∈ singleMarks ∧
      (Lexeme.mark mark).role = .plain ∧ ∃ char, mark.toList = [char] ∧ char ≠ '\x7d' ∧
        goalAfter goal (.mark mark) = .operand := by
    obtain rfl | hmark := List.mem_cons.1 hmark
    · exact ⟨by decide, rfl, ',', by decide, by decide, goalAfter_of_ne Lexeme.noConfusion⟩
    · cases List.mem_singleton.1 hmark
      exact ⟨by decide, rfl, ';', by decide, by decide, goalAfter_of_ne Lexeme.noConfusion⟩
  intro brackets rest _
  rw [hchar, List.singleton_append,
    lexFrom_singleMark hmem hchar fun heq => absurd heq hbrace,
    Context.after_plain hrole (.inr fun word _ => Lexeme.noConfusion), hafter]
  rfl

/-- The marks of a bracket other than that of a template. -/
def opening : Bracket → String
  | .paren => "("
  | .square => "["
  | .brace => "\x7b"
  | .template => ""

def closing : Bracket → String
  | .paren => ")"
  | .square => "]"
  | .brace => "\x7d"
  | .template => ""

theorem opening_closing (hbracket : bracket ≠ .template) :
    ∃ first last, (opening bracket).toList = [first] ∧ (closing bracket).toList = [last] ∧
      first ≠ '\x7d' ∧ opening bracket ∈ singleMarks ∧ closing bracket ∈ singleMarks ∧
      (Lexeme.mark (opening bracket)).role = .opens bracket ∧
      (Lexeme.mark (closing bracket)).role = .closes bracket := by
  cases bracket with
  | paren => exact ⟨'(', ')', by decide⟩
  | square => exact ⟨'[', ']', by decide⟩
  | brace => exact ⟨'\x7b', '\x7d', by decide⟩
  | template => exact absurd rfl hbracket

/-- A piece of text in brackets. -/
theorem lexFrom_bracketed {after : Goal} {inner rest : List Char} {lexemes : List Lexeme}
    {stops : Char → Bool} (hbracket : bracket ≠ .template)
    (hinner : Scans layout .operand inner lexemes after stops)
    (hstops : ∀ char ∈ (closing bracket).toList, stops char = true) :
    lexFrom layout context ((opening bracket).toList ++ inner ++ (closing bracket).toList ++ rest) =
      (lexFrom layout ⟨context.goalBehind bracket, false, context.brackets⟩ rest).map
        (.mark (opening bracket) :: lexemes ++ [.mark (closing bracket)] ++ ·) := by
  obtain ⟨first, last, hfirst, hlast, hne, hopening, hclosing, hopens, hcloses⟩ :=
    opening_closing hbracket
  have hopen : context.after (.mark (opening bracket)) =
      ⟨.operand, false, (bracket, context.goalBehind bracket) :: context.brackets⟩ := by
    rw [Context.after, hopens]
  have hclose : Context.after ⟨after, false, (bracket, context.goalBehind bracket) ::
      context.brackets⟩ (.mark (closing bracket)) =
        ⟨context.goalBehind bracket, false, context.brackets⟩ := by
    rw [Context.after, hcloses]
    rfl
  have houtside : Context.isInTemplate ⟨after, false, (bracket, context.goalBehind bracket) ::
      context.brackets⟩ = false := beq_eq_false_iff_ne.2 hbracket
  rw [hfirst, hlast, List.append_assoc, List.append_assoc, List.singleton_append,
    List.singleton_append, lexFrom_singleMark hopening hfirst fun heq => absurd heq hne, hopen,
    hinner _ (last :: rest) fun char hchar => ?_,
    lexFrom_singleMark hclosing hlast fun _ => houtside, hclose, Option.map_map, Option.map_map]
  · congr 1
    funext found
    simp
  · cases hchar
    exact hstops last (hlast ▸ List.mem_singleton_self last)

namespace Scans

variable {layout : Layout} {goal after : Goal} {inner : List Char} {lexemes : List Lexeme}
  {stops : Char → Bool}

theorem bracketed {bracket : Bracket} (goal : Goal) (hbracket : bracket ≠ .template)
    (hinner : Scans layout .operand inner lexemes after stops)
    (hstops : ∀ char ∈ (closing bracket).toList, stops char = true) :
    Scans layout goal ((opening bracket).toList ++ inner ++ (closing bracket).toList)
      (.mark (opening bracket) :: lexemes ++ [.mark (closing bracket)])
      (Context.goalBehind ⟨goal, false, []⟩ bracket) anyChar := by
  intro brackets rest _
  rw [lexFrom_bracketed hbracket hinner hstops]
  cases bracket <;> rfl

/-- The keyword and the head of a statement, behind which a statement may start. -/
theorem head {keyword : String} (hkeyword : keyword ∈ headWords)
    (hinner : Scans layout .operand inner lexemes after stops) (hstops : stops ')' = true) :
    Scans layout .operand (keyword.toList ++ ' ' :: '(' :: inner ++ [')'])
      (.word keyword :: .mark "(" :: lexemes ++ [.mark ")"]) .operand anyChar := by
  have hwords : ∀ word ∈ headWords, isWord word = true ∧
      (headWords.any fun other => Lexeme.word word == .word other) = true := by decide
  obtain ⟨hword, hany⟩ := hwords keyword hkeyword
  obtain ⟨char, seen, htext, hchar, hcuts⟩ := exists_cuts_of_isWord hword .operand
  intro brackets rest _
  have hafter : Context.after ⟨.operand, false, brackets⟩ (.word keyword) =
      ⟨goalAfter .operand (.word keyword), true, brackets⟩ :=
    congrArg (Context.mk _ · brackets) hany
  have hparen : keyword.toList ++ ' ' :: '(' :: inner ++ [')'] ++ rest =
      keyword.toList ++
        ' ' :: ((opening .paren).toList ++ inner ++ (closing .paren).toList ++ rest) := by
    simp [opening, closing]
  have hstart := not_template_of_wordChar hchar
  have hblank : layout.isBlank ' ' = true := by cases layout <;> decide
  rw [hparen, htext, lexFrom_of_cuts hcuts hstart.1 (fun hbrace => absurd hbrace hstart.2),
    hafter, lexFrom_blank hblank, lexFrom_bracketed (by decide) hinner, Option.map_map]
  · rfl
  · exact fun char hmem => List.mem_singleton.1 hmem ▸ hstops
  · exact fun next hnext => Option.some.inj hnext ▸ (by decide)

end Scans

end Debundle.Lexer
