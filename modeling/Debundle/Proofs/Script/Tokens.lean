import Debundle.Proofs.Script.Template

/-!
# Texts that fall into tokens

Whether a slash divides or starts a regular expression cannot always be told from the lexemes in
front of it: behind a closing brace it depends on what the brace closes, and `yield` is a name in
one function and a keyword in another.  ECMAScript leaves that to the grammar, which says what is
expected at every place.  So a text falls into tokens in a way that the grammar has a say in, and
each token remembers what was expected in front of it.

`Falls` says what a piece of text contributes to the text that it stands in.
-/

namespace Debundle.Lexer

/-- A lexeme, and what was expected in front of it. -/
structure ScriptToken where
  goal : Goal
  lexeme : Lexeme
  deriving DecidableEq

/-- The words that are names in some places and keywords in others, and `super`, which is no
expression by itself. -/
def contextualWords : List String :=
  ["async", "await", "get", "let", "of", "set", "static", "super", "yield"]

/-- What the grammar may expect behind a lexeme. -/
def Goal.permits (goal : Goal) (lexeme : Lexeme) (next : Goal) : Bool :=
  match lexeme.role with
  | .opens _ | .divides => next == .operand
  | .closes .paren | .closes .brace => next != .property
  | .closes _ => next == .operator
  | .plain => next == goal.after lexeme ||
    (next != .property && contextualWords.any fun word => lexeme == .word word)

/-- The lexeme at the start of a text.  A brace may go on with a template. -/
def Begins (goal : Goal) (char : Char) (rest : List Char) (cut : Cut) : Prop :=
  cut? goal char rest = some cut ∨
    (char = '\x60' ∨ char = '\x7d') ∧ templateCut? [char] rest = some cut

/-- A text falls into tokens, each of them as long as possible. -/
inductive FallsInto : Goal → List Char → List ScriptToken → Prop where
  | done (goal : Goal) : FallsInto goal [] []
  | blank {goal : Goal} {char : Char} {rest : List Char} {tokens : List ScriptToken} :
      isBlank char = true → FallsInto goal rest tokens → FallsInto goal (char :: rest) tokens
  | token {goal next : Goal} {char : Char} {rest : List Char} {cut : Cut}
      {tokens : List ScriptToken} :
      isBlank char = false → Begins goal char rest cut →
      goal.permits cut.lexeme next = true → FallsInto next cut.rest tokens →
      FallsInto goal (char :: rest) (⟨goal, cut.lexeme⟩ :: tokens)

/-- In front of any text whose first character is one of `stops`, the characters fall into the
tokens, and the text falls into what it would fall into behind them. -/
def Falls (goal : Goal) (chars : List Char) (tokens : List ScriptToken) (after : Goal)
    (stops : Char → Bool) : Prop :=
  ∀ rest tail, (∀ char ∈ rest.head?, stops char = true) → FallsInto after rest tail →
    FallsInto goal (chars ++ rest) (tokens ++ tail)

/-- A text that starts with one of `stops` does so with anything behind it. -/
theorem stops_of_head {stops : Char → Bool} {chars : List Char}
    (hhead : chars.head?.any stops = true) (rest : List Char) :
    ∀ char ∈ (chars ++ rest).head?, stops char = true := by
  cases chars with
  | nil => cases hhead
  | cons first chars => exact fun char hchar => Option.some.inj hchar ▸ hhead

namespace Falls

variable {goal after later : Goal} {chars more : List Char} {tokens others : List ScriptToken}
  {stops stops' : Char → Bool} {text : String}

theorem fallsInto (hfalls : Falls goal chars tokens after stops) : FallsInto goal chars tokens := by
  have hwhole := hfalls [] [] (fun _ hhead => by cases hhead) (.done after)
  rwa [List.append_nil, List.append_nil] at hwhole

theorem mono (hfalls : Falls goal chars tokens after stops)
    (hstops : ∀ char, stops' char = true → stops char = true) :
    Falls goal chars tokens after stops' :=
  fun rest tail hrest => hfalls rest tail fun char hchar => hstops char (hrest char hchar)

theorem append (hfirst : Falls goal chars tokens after stops)
    (hsecond : Falls after more others later stops')
    (hjoin : more.head?.any stops = true) :
    Falls goal (chars ++ more) (tokens ++ others) later stops' := by
  intro rest tail hrest htail
  rw [List.append_assoc, List.append_assoc]
  exact hfirst _ _ (stops_of_head hjoin rest) (hsecond rest tail hrest htail)

/-- Anything may follow the first characters. -/
theorem append_any (hfirst : Falls goal chars tokens after anyChar)
    (hsecond : Falls after more others later stops) :
    Falls goal (chars ++ more) (tokens ++ others) later stops := by
  intro rest tail hrest htail
  rw [List.append_assoc, List.append_assoc]
  exact hfirst _ _ (fun _ _ => rfl) (hsecond rest tail hrest htail)

theorem blank (goal : Goal) (hchars : chars.all isBlank = true) :
    Falls goal chars [] goal anyChar := by
  intro rest tail _ htail
  induction chars with
  | nil => exact htail
  | cons char chars ih =>
    rw [List.all_cons, Bool.and_eq_true] at hchars
    exact .blank hchars.1 (ih hchars.2)

theorem of_cuts {char : Char} {seen : List Char} {lexeme : Lexeme}
    (hcuts : Cuts goal char seen lexeme stops) (hpermits : goal.permits lexeme after = true) :
    Falls goal (char :: seen) [⟨goal, lexeme⟩] after stops :=
  fun rest _ hrest htail =>
    .token hcuts.not_blank (.inl (hcuts.cut?_eq rest hrest)) hpermits htail

theorem word (hword : isWord text = true) (hpermits : goal.permits (.word text) after = true) :
    Falls goal text.toList [⟨goal, .word text⟩] after isWordEnd := by
  obtain ⟨char, seen, htext, -, hcuts⟩ := exists_cuts_of_isWord hword goal
  rw [htext]
  exact of_cuts hcuts hpermits

theorem mark (hmark : text ∈ marks) (hcomment : text ∉ commentMarks)
    (hgoal : goal ≠ .operand ∨ text ∉ slashMarks)
    (hpermits : goal.permits (.mark text) after = true) :
    Falls goal text.toList [⟨goal, .mark text⟩] after (markStops text) := by
  obtain ⟨char, seen, htext, hcuts⟩ := exists_cuts_of_mark hmark hcomment hgoal
  rw [htext]
  exact of_cuts hcuts hpermits

/-- Anything may stand behind a bracket, a comma or a semicolon. -/
theorem singleMark (hmark : text ∈ singleMarks)
    (hpermits : goal.permits (.mark text) after = true) :
    Falls goal text.toList [⟨goal, .mark text⟩] after anyChar := by
  have hsingle : ∀ mark ∈ singleMarks, mark ∈ marks ∧ mark ∉ commentMarks ∧ mark ∉ slashMarks ∧
      continuations mark = [] ∧ mark ≠ "." := by decide
  obtain ⟨hmem, hcomment, hslash, hnone, hpoint⟩ := hsingle text hmark
  apply (mark hmem hcomment (.inr hslash) hpermits).mono
  intro char _
  simp [markStops, hnone, hpoint]

/-- A piece of a template, up to its end or the next expression. -/
theorem piece {start : Char} {raw ending : List Char} (hstart : start = '\x60' ∨ start = '\x7d')
    (hending : ending = ['\x60'] ∨ ending = ['$', '\x7b']) (hpiece : isPiece raw = true)
    (hpermits : goal.permits (.literal (.ofList (start :: raw ++ ending))) after = true) :
    Falls goal (start :: raw ++ ending) [⟨goal, .literal (.ofList (start :: raw ++ ending))⟩]
      after anyChar := by
  have hblank : isBlank start = false := by
    obtain rfl | rfl := hstart <;> decide
  intro rest tail _ htail
  have hcut : templateCut? [start] (raw ++ (ending ++ rest)) =
      some ⟨.literal (.ofList (start :: raw ++ ending)), rest⟩ := by
    obtain rfl | rfl := hending
    · rw [templateCut?_append hpiece (by simp)]
      exact templateCut?.eq_2 _ _
    · rw [templateCut?_append hpiece (by simp)]
      exact templateCut?.eq_3 _ _
  rw [List.append_assoc, List.cons_append]
  exact .token hblank (.inr ⟨hstart, hcut⟩) hpermits htail

end Falls

theorem Falls.literal {text : String} (hliteral : isLiteral text = true) :
    Falls .operand text.toList [⟨.operand, literalLexeme text⟩] .operator (endsBefore text) := by
  have hpermits : Goal.permits .operand (literalLexeme text) .operator = true := by
    have hconstants : ∀ word ∈ constantWords,
        Goal.permits .operand (.word word) .operator = true := by decide
    have hrole := role_literalLexeme hliteral
    unfold literalLexeme at hrole ⊢
    split at hrole
    · rw [if_pos ‹_›]
      exact hconstants text ‹_›
    · rw [if_neg ‹_›, Goal.permits, hrole]
      rfl
  obtain ⟨char, seen, htext, -, hcuts⟩ := exists_cuts_of_literal hliteral
  rw [htext]
  exact of_cuts hcuts hpermits

end Debundle.Lexer
