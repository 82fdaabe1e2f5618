import Debundle.Proofs.Script.Brackets

/-!
# Which `if` an `else` belongs to

The part of the grammar of ECMAScript that tells the branches of `if` from each other:
conditionals, loops, blocks, labels, and statements without a statement inside.  Conditions and
the latter are left as lexemes.

An `if` without `else` is one that no `else` follows, so that every `else` belongs to the last
`if` in front of it that can take it.
-/

namespace Debundle

inductive Statement where
  /-- A statement without a statement inside. -/
  | simple (lexemes : List Lexeme)
  | block (items : List Statement)
  /-- An `if` without `else`. -/
  | choice (test : List Lexeme) (first : Statement)
  | branch (test : List Lexeme) (first second : Statement)
  /-- A `for`, `while` or `with`. -/
  | headed (keyword : String) (head : List Lexeme) (body : Statement)
  | doWhile (body : Statement) (test : List Lexeme)
  | labeled (label : String) (body : Statement)

/-- What kind of statement starts with two lexemes. -/
inductive Opener where
  | block | choice | doing
  | headed (keyword : String)
  | label (text : String)
  /-- No statement starts with `else` or a closing brace. -/
  | nothing
  | simple

/-- The words with a head in parentheses behind them and a statement behind that, other
than `if`. -/
def loopWords : List String :=
  ["for", "while", "with"]

def Lexeme.opener : Lexeme → Option Lexeme → Opener
  | .mark text, _ => if text = "\x7b" then .block else if text = "\x7d" then .nothing else .simple
  | .word text, next =>
    if text = "if" then .choice
    else if text = "do" then .doing
    else if text = "else" then .nothing
    else if text ∈ loopWords then .headed text
    else if next = some (.mark ":") then .label text
    else .simple
  | .literal _, _ => .simple

def opener : List Lexeme → Opener
  | [] => .nothing
  | lexeme :: rest => lexeme.opener rest.head?

/-- A statement that ends with the first semicolon outside of brackets. -/
structure IsSimple (lexemes : List Lexeme) : Prop where
  ends : ∃ body, lexemes = body ++ [.mark ";"] ∧ Closed [.mark ";"] body
  opener_eq : opener lexemes = .simple

namespace Statement

/-- One statement, or the rest of a block with its brace. -/
inductive Passage where
  | one (statement : Statement)
  | many (items : List Statement)

def Passage.isOne : Passage → Bool
  | .one _ => true
  | .many _ => false

theorem Passage.exists_one {passage : Passage} (hone : passage.isOne = true) :
    ∃ statement, passage = .one statement := by
  cases passage with
  | one statement => exact ⟨statement, rfl⟩
  | many items => cases hone

theorem Passage.exists_many {passage : Passage} (hmany : passage.isOne = false) :
    ∃ items, passage = .many items := by
  cases passage with
  | one statement => cases hmany
  | many items => exact ⟨items, rfl⟩

/-- Lexemes start with a passage, and others follow it. -/
inductive Reads : Passage → List Lexeme → List Lexeme → Prop where
  | simple {lexemes rest : List Lexeme} :
      IsSimple lexemes → Reads (.one (.simple lexemes)) (lexemes ++ rest) rest
  | block {items : List Statement} {lexemes rest : List Lexeme} :
      Reads (.many items) lexemes rest → Reads (.one (.block items)) (.mark "\x7b" :: lexemes) rest
  /-- No `else` follows an `if` without `else`. -/
  | choice {test lexemes rest : List Lexeme} {first : Statement} :
      Closed [] test → Reads (.one first) lexemes rest → rest.head? ≠ some (.word "else") →
      Reads (.one (.choice test first)) (.word "if" :: (grouped test ++ lexemes)) rest
  | branch {test lexemes more rest : List Lexeme} {first second : Statement} :
      Closed [] test → Reads (.one first) lexemes (.word "else" :: more) →
      Reads (.one second) more rest →
      Reads (.one (.branch test first second)) (.word "if" :: (grouped test ++ lexemes)) rest
  | headed {keyword : String} {head lexemes rest : List Lexeme} {body : Statement} :
      keyword ∈ loopWords → Closed [] head → Reads (.one body) lexemes rest →
      Reads (.one (.headed keyword head body)) (.word keyword :: (grouped head ++ lexemes)) rest
  | doWhile {test lexemes rest : List Lexeme} {body : Statement} :
      Closed [] test →
      Reads (.one body) lexemes (.word "while" :: (grouped test ++ .mark ";" :: rest)) →
      Reads (.one (.doWhile body test)) (.word "do" :: lexemes) rest
  | labeled {label : String} {lexemes rest : List Lexeme} {body : Statement} :
      label ∉ reservedWords → Reads (.one body) lexemes rest →
      Reads (.one (.labeled label body)) (.word label :: .mark ":" :: lexemes) rest
  | done {rest : List Lexeme} : Reads (.many []) (.mark "\x7d" :: rest) rest
  | next {item : Statement} {items : List Statement} {lexemes more rest : List Lexeme} :
      Reads (.one item) lexemes more → Reads (.many items) more rest →
      Reads (.many (item :: items)) lexemes rest

def opener : Statement → Opener
  | .simple _ => .simple
  | .block _ => .block
  | .choice _ _ | .branch _ _ _ => .choice
  | .headed keyword _ _ => .headed keyword
  | .doWhile _ _ => .doing
  | .labeled label _ => .label label

section Reads

variable {statement : Statement} {lexemes rest : List Lexeme}

theorem opener_simple_append (hsimple : IsSimple lexemes) (rest : List Lexeme) :
    Debundle.opener (lexemes ++ rest) = .simple := by
  obtain ⟨⟨body, rfl, -⟩, hopener⟩ := hsimple
  cases body with
  | nil => exact hopener
  | cons first body =>
    cases body with
    | nil => exact hopener
    | cons second body => exact hopener

theorem opener_loopWord {keyword : String} (hkeyword : keyword ∈ loopWords) (next : Option Lexeme) :
    (Lexeme.word keyword).opener next = .headed keyword := by
  have hwords : ∀ word ∈ loopWords, word ≠ "if" ∧ word ≠ "do" ∧ word ≠ "else" := by decide
  obtain ⟨hif, hdo, helse⟩ := hwords keyword hkeyword
  rw [Lexeme.opener, if_neg hif, if_neg hdo, if_neg helse, if_pos hkeyword]

theorem opener_label {label : String} (hlabel : label ∉ reservedWords) :
    (Lexeme.word label).opener (some (.mark ":")) = .label label := by
  have hwords : ∀ word ∈ "if" :: "do" :: "else" :: loopWords, word ∈ reservedWords := by decide
  have hother : label ∉ "if" :: "do" :: "else" :: loopWords := fun hmem =>
    hlabel (hwords label hmem)
  simp only [List.mem_cons, not_or] at hother
  obtain ⟨hif, hdo, helse, hloop⟩ := hother
  rw [Lexeme.opener, if_neg hif, if_neg hdo, if_neg helse, if_neg hloop, if_pos rfl]

/-- The kind of a statement can be told from its first two lexemes. -/
theorem Reads.opener_eq (hreads : Reads (.one statement) lexemes rest) :
    Debundle.opener lexemes = statement.opener := by
  cases hreads with
  | simple hsimple => exact opener_simple_append hsimple rest
  | block _ => rfl
  | choice _ _ _ => rfl
  | branch _ _ _ => rfl
  | headed hkeyword _ _ => exact opener_loopWord hkeyword _
  | doWhile _ _ => rfl
  | labeled hlabel _ => exact opener_label hlabel

theorem Reads.of_block (hreads : Reads (.one statement) (.mark "\x7b" :: lexemes) rest) :
    ∃ items, statement = .block items ∧ Reads (.many items) lexemes rest := by
  have hopener := hreads.opener_eq
  generalize hall : Lexeme.mark "\x7b" :: lexemes = all at hreads hopener
  cases hreads with
  | block hitems =>
    cases hall
    exact ⟨_, rfl, hitems⟩
  | _ =>
    rw [← hall] at hopener
    cases hopener

theorem Reads.of_choice {test : List Lexeme}
    (hreads : Reads (.one statement) (.word "if" :: (grouped test ++ lexemes)) rest)
    (htest : Closed [] test) :
    (∃ first, statement = .choice test first ∧ Reads (.one first) lexemes rest ∧
      rest.head? ≠ some (.word "else")) ∨
    ∃ first second more, statement = .branch test first second ∧
      Reads (.one first) lexemes (.word "else" :: more) ∧ Reads (.one second) more rest := by
  have hopener := hreads.opener_eq
  generalize hall : Lexeme.word "if" :: (grouped test ++ lexemes) = all at hreads hopener
  cases hreads with
  | choice hclosed hfirst helse =>
    obtain ⟨rfl, rfl⟩ := split_grouped htest hclosed (List.cons.inj hall).2
    exact .inl ⟨_, rfl, hfirst, helse⟩
  | branch hclosed hfirst hsecond =>
    obtain ⟨rfl, rfl⟩ := split_grouped htest hclosed (List.cons.inj hall).2
    exact .inr ⟨_, _, _, rfl, hfirst, hsecond⟩
  | _ =>
    rw [← hall] at hopener
    cases hopener

theorem Reads.of_headed {keyword : String} {head : List Lexeme}
    (hreads : Reads (.one statement) (.word keyword :: (grouped head ++ lexemes)) rest)
    (hkeyword : keyword ∈ loopWords) (hhead : Closed [] head) :
    ∃ body, statement = .headed keyword head body ∧ Reads (.one body) lexemes rest := by
  have hopener := hreads.opener_eq
  rw [Debundle.opener, opener_loopWord hkeyword] at hopener
  generalize hall : Lexeme.word keyword :: (grouped head ++ lexemes) = all at hreads
  cases hreads with
  | headed _ hclosed hbody =>
    cases hopener
    obtain ⟨rfl, rfl⟩ := split_grouped hhead hclosed (List.cons.inj hall).2
    exact ⟨_, rfl, hbody⟩
  | _ => cases hopener

theorem Reads.of_doWhile (hreads : Reads (.one statement) (.word "do" :: lexemes) rest) :
    ∃ body test, statement = .doWhile body test ∧ Closed [] test ∧
      Reads (.one body) lexemes (.word "while" :: (grouped test ++ .mark ";" :: rest)) := by
  have hopener := hreads.opener_eq
  generalize hall : Lexeme.word "do" :: lexemes = all at hreads hopener
  cases hreads with
  | doWhile hclosed hbody =>
    cases hall
    exact ⟨_, _, rfl, hclosed, hbody⟩
  | _ =>
    rw [← hall] at hopener
    cases hopener

theorem Reads.of_labeled {label : String}
    (hreads : Reads (.one statement) (.word label :: .mark ":" :: lexemes) rest)
    (hlabel : label ∉ reservedWords) :
    ∃ body, statement = .labeled label body ∧ Reads (.one body) lexemes rest := by
  have hopener := hreads.opener_eq
  rw [Debundle.opener, List.head?_cons, opener_label hlabel] at hopener
  generalize hall : Lexeme.word label :: .mark ":" :: lexemes = all at hreads
  cases hreads with
  | labeled _ hbody =>
    cases hall
    exact ⟨_, rfl, hbody⟩
  | _ => cases hopener

/-- A simple statement ends with its first semicolon. -/
theorem IsSimple.split {others more : List Lexeme} (hsimple : IsSimple lexemes)
    (hother : IsSimple others) (heq : lexemes ++ rest = others ++ more) :
    lexemes = others ∧ rest = more := by
  obtain ⟨⟨body, rfl, hbody⟩, -⟩ := hsimple
  obtain ⟨⟨another, rfl, hanother⟩, -⟩ := hother
  rw [List.append_assoc, List.append_assoc] at heq
  obtain ⟨rfl, -, rfl⟩ := hbody.split hanother rfl rfl heq
  exact ⟨rfl, rfl⟩

theorem Reads.of_simple {simple : List Lexeme}
    (hreads : Reads (.one statement) (simple ++ lexemes) rest) (hsimple : IsSimple simple) :
    statement = .simple simple ∧ rest = lexemes := by
  have hopener := hreads.opener_eq
  rw [opener_simple_append hsimple] at hopener
  generalize hall : simple ++ lexemes = all at hreads
  cases hreads with
  | simple hother =>
    obtain ⟨rfl, rfl⟩ := IsSimple.split hsimple hother hall
    exact ⟨rfl, rfl⟩
  | _ => cases hopener

/-- No statement starts with a closing brace or `else`. -/
theorem Reads.opener_ne_nothing (hreads : Reads (.one statement) lexemes rest) :
    Debundle.opener lexemes ≠ .nothing := by
  rw [hreads.opener_eq]
  cases statement <;> exact Opener.noConfusion

theorem Reads.of_brace {items : List Statement}
    (hreads : Reads (.many items) (.mark "\x7d" :: lexemes) rest) :
    items = [] ∧ rest = lexemes := by
  generalize hall : Lexeme.mark "\x7d" :: lexemes = all at hreads
  cases hreads with
  | done =>
    cases hall
    exact ⟨rfl, rfl⟩
  | next hitem _ => exact absurd (hall ▸ rfl) hitem.opener_ne_nothing

/-- Lexemes start with at most one statement, and a block ends at one brace. -/
theorem Reads.unique {passage another : Passage} {other : List Lexeme}
    (hreads : Reads passage lexemes rest) (hother : Reads another lexemes other)
    (hshape : passage.isOne = another.isOne) : passage = another ∧ rest = other := by
  induction hreads generalizing another other with
  | simple hsimple =>
    obtain ⟨second, rfl⟩ := Passage.exists_one hshape.symm
    obtain ⟨rfl, rfl⟩ := hother.of_simple hsimple
    exact ⟨rfl, rfl⟩
  | block _ ih =>
    obtain ⟨second, rfl⟩ := Passage.exists_one hshape.symm
    obtain ⟨others, rfl, hitems⟩ := hother.of_block
    obtain ⟨hsame, rfl⟩ := ih hitems rfl
    cases hsame
    exact ⟨rfl, rfl⟩
  | choice htest _ helse ih =>
    obtain ⟨second, rfl⟩ := Passage.exists_one hshape.symm
    obtain ⟨first, rfl, hfirst, -⟩ | ⟨first, second, more, rfl, hfirst, -⟩ := hother.of_choice htest
    · obtain ⟨hsame, rfl⟩ := ih hfirst rfl
      cases hsame
      exact ⟨rfl, rfl⟩
    · -- Both readings of the first branch end at the same place, where `else` stands in one only.
      obtain ⟨-, rfl⟩ := ih hfirst rfl
      exact absurd rfl helse
  | branch htest _ _ hfirst hsecond =>
    obtain ⟨second, rfl⟩ := Passage.exists_one hshape.symm
    obtain ⟨first, rfl, hother, helse⟩ | ⟨first, second, more, rfl, hother, hmore⟩ :=
      hother.of_choice htest
    · obtain ⟨-, rfl⟩ := hfirst hother rfl
      exact absurd rfl helse
    · obtain ⟨hsame, hrest⟩ := hfirst hother rfl
      cases hsame
      cases hrest
      obtain ⟨hsame, rfl⟩ := hsecond hmore rfl
      cases hsame
      exact ⟨rfl, rfl⟩
  | headed hkeyword hhead _ ih =>
    obtain ⟨second, rfl⟩ := Passage.exists_one hshape.symm
    obtain ⟨body, rfl, hbody⟩ := hother.of_headed hkeyword hhead
    obtain ⟨hsame, rfl⟩ := ih hbody rfl
    cases hsame
    exact ⟨rfl, rfl⟩
  | doWhile htest _ ih =>
    obtain ⟨second, rfl⟩ := Passage.exists_one hshape.symm
    obtain ⟨body, test, rfl, hclosed, hbody⟩ := hother.of_doWhile
    obtain ⟨hsame, hrest⟩ := ih hbody rfl
    cases hsame
    obtain ⟨rfl, hmore⟩ := split_grouped htest hclosed (List.cons.inj hrest).2
    cases hmore
    exact ⟨rfl, rfl⟩
  | labeled hlabel _ ih =>
    obtain ⟨second, rfl⟩ := Passage.exists_one hshape.symm
    obtain ⟨body, rfl, hbody⟩ := hother.of_labeled hlabel
    obtain ⟨hsame, rfl⟩ := ih hbody rfl
    cases hsame
    exact ⟨rfl, rfl⟩
  | done =>
    obtain ⟨others, rfl⟩ := Passage.exists_many hshape.symm
    obtain ⟨rfl, rfl⟩ := hother.of_brace
    exact ⟨rfl, rfl⟩
  | next hitem _ hfirst hrest =>
    obtain ⟨others, rfl⟩ := Passage.exists_many hshape.symm
    cases hother with
    | done => exact absurd rfl hitem.opener_ne_nothing
    | next hother hmore =>
      obtain ⟨hsame, rfl⟩ := hfirst hother rfl
      cases hsame
      obtain ⟨hsame, rfl⟩ := hrest hmore rfl
      cases hsame
      exact ⟨rfl, rfl⟩

end Reads

/-! ### Braces around a first branch -/

mutual

/-- What a statement is written as. -/
def lexemes : Statement → List Lexeme
  | .simple lexemes => lexemes
  | .block items => .mark "\x7b" :: (allLexemes items ++ [.mark "\x7d"])
  | .choice test first => .word "if" :: (grouped test ++ first.lexemes)
  | .branch test first second =>
    .word "if" :: (grouped test ++ (first.lexemes ++ .word "else" :: second.lexemes))
  | .headed keyword head body => .word keyword :: (grouped head ++ body.lexemes)
  | .doWhile body test =>
    .word "do" :: (body.lexemes ++ .word "while" :: (grouped test ++ [.mark ";"]))
  | .labeled label body => .word label :: .mark ":" :: body.lexemes

def allLexemes : List Statement → List Lexeme
  | [] => []
  | item :: items => item.lexemes ++ allLexemes items

end

/-- Whether a statement ends with an `if` without `else`. -/
def endsOpen : Statement → Bool
  | .choice _ _ => true
  | .branch _ _ second => second.endsOpen
  | .headed _ _ body | .labeled _ body => body.endsOpen
  | .simple _ | .block _ | .doWhile _ _ => false

mutual

/-- Every first branch that would take the `else` behind it is put in a block. -/
def braced : Statement → Statement
  | .simple lexemes => .simple lexemes
  | .block items => .block (allBraced items)
  | .choice test first => .choice test first.braced
  | .branch test first second =>
    .branch test (if first.endsOpen then .block [first.braced] else first.braced) second.braced
  | .headed keyword head body => .headed keyword head body.braced
  | .doWhile body test => .doWhile body.braced test
  | .labeled label body => .labeled label body.braced

def allBraced : List Statement → List Statement
  | [] => []
  | item :: items => item.braced :: allBraced items

end

/-- The conditions, the labels and the simple statements are such. -/
inductive IsProper : Statement → Prop where
  | simple {lexemes : List Lexeme} : IsSimple lexemes → IsProper (.simple lexemes)
  | block {items : List Statement} : (∀ item ∈ items, IsProper item) → IsProper (.block items)
  | choice {test : List Lexeme} {first : Statement} :
      Closed [] test → IsProper first → IsProper (.choice test first)
  | branch {test : List Lexeme} {first second : Statement} :
      Closed [] test → IsProper first → IsProper second → IsProper (.branch test first second)
  | headed {keyword : String} {head : List Lexeme} {body : Statement} :
      keyword ∈ loopWords → Closed [] head → IsProper body → IsProper (.headed keyword head body)
  | doWhile {body : Statement} {test : List Lexeme} :
      Closed [] test → IsProper body → IsProper (.doWhile body test)
  | labeled {label : String} {body : Statement} :
      label ∉ reservedWords → IsProper body → IsProper (.labeled label body)

section Braced

variable {statement : Statement} {lexemes rest : List Lexeme}

/-- Where no `else` follows that a statement would take, it is read as it is written. -/
def IsReadable (statement : Statement) : Prop :=
  ∀ rest, (statement.endsOpen = true → rest.head? ≠ some (.word "else")) →
    Reads (.one statement.braced) (statement.braced.lexemes ++ rest) rest

theorem head_ne_else (hreads : Reads (.one statement) lexemes rest) :
    lexemes.head? ≠ some (.word "else") := by
  intro hhead
  obtain ⟨more, rfl⟩ := List.head?_eq_some_iff.1 hhead
  exact hreads.opener_ne_nothing rfl

/-- In a block no `else` follows a statement. -/
theorem reads_allBraced {items : List Statement} (hitems : ∀ item ∈ items, IsReadable item)
    (rest : List Lexeme) :
    Reads (.many (allBraced items)) (allLexemes (allBraced items) ++ .mark "\x7d" :: rest) rest ∧
      (allLexemes (allBraced items) ++ .mark "\x7d" :: rest).head? ≠ some (.word "else") := by
  induction items with
  | nil => exact ⟨.done, by simp [allBraced, allLexemes]⟩
  | cons item items ih =>
    rw [List.forall_mem_cons] at hitems
    obtain ⟨hrest, helse⟩ := ih hitems.2
    have hitem := hitems.1 _ fun _ => helse
    rw [allBraced, allLexemes, List.append_assoc]
    exact ⟨.next hitem hrest, head_ne_else hitem⟩

theorem IsProper.isReadable (hproper : statement.IsProper) : statement.IsReadable := by
  induction hproper with
  | simple hsimple =>
    intro rest _
    exact .simple hsimple
  | @block items _ ih =>
    intro rest _
    rw [braced, Statement.lexemes, List.cons_append, List.append_assoc, List.singleton_append]
    exact .block (reads_allBraced ih rest).1
  | choice htest _ ih =>
    intro rest hrest
    rw [braced, Statement.lexemes, List.cons_append, List.append_assoc]
    exact .choice htest (ih rest fun _ => hrest rfl) (hrest rfl)
  | @branch test first second htest _ _ hfirst hsecond =>
    intro rest hrest
    rw [braced, Statement.lexemes, List.cons_append, List.append_assoc, List.append_assoc,
      List.cons_append]
    refine .branch htest ?_ (hsecond rest hrest)
    by_cases hopen : first.endsOpen = true
    · -- The block ends with a brace, so that what is open in it meets no `else`.
      have hblock := reads_allBraced (List.forall_mem_singleton.2 hfirst)
      rw [if_pos hopen, Statement.lexemes, List.cons_append, List.append_assoc,
        List.singleton_append]
      exact .block (hblock _).1
    · rw [if_neg hopen]
      exact hfirst _ fun hends => absurd hends hopen
  | headed hkeyword hhead _ ih =>
    intro rest hrest
    rw [braced, Statement.lexemes, List.cons_append, List.append_assoc]
    exact .headed hkeyword hhead (ih rest hrest)
  | doWhile htest _ ih =>
    intro rest _
    rw [braced, Statement.lexemes, List.cons_append, List.append_assoc, List.cons_append,
      List.append_assoc, List.singleton_append]
    exact .doWhile htest (ih _ fun _ => by simp)
  | labeled hlabel _ ih =>
    intro rest hrest
    rw [braced, Statement.lexemes, List.cons_append, List.cons_append]
    exact .labeled hlabel (ih rest hrest)

/-- A statement is read back, and nothing else, with a block around each first branch that
would have taken the `else` behind it. -/
theorem IsProper.reads_iff (hproper : statement.IsProper) (other : Statement) :
    Reads (.one other) statement.braced.lexemes [] ↔ other = statement.braced := by
  have hreads := hproper.isReadable [] fun _ => by simp
  rw [List.append_nil] at hreads
  constructor
  · intro hother
    cases (hother.unique hreads rfl).1
    rfl
  · rintro rfl
    exact hreads

end Braced

end Statement

end Debundle
