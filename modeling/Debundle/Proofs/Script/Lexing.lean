import Mathlib.Data.List.Basic
import Debundle.Proofs.Script.Lexer

/-!
# The lexemes of pieces of text

`Cuts` says that characters are cut off a text as one lexeme, as long as what follows does not
run into it.  Words, marks and literals differ in what may follow them.
-/

namespace Debundle.Lexer

/-- Every character. -/
def anyChar (_ : Char) : Bool :=
  true

/-- A character that stands between lexemes. -/
def isBlank (char : Char) : Bool :=
  spaces.contains char || lineBreaks.contains char

/-- In front of any text whose first character is one of `stops`, the characters are cut off
as one lexeme. -/
structure Cuts (goal : Goal) (char : Char) (seen : List Char) (lexeme : Lexeme)
    (stops : Char → Bool) : Prop where
  not_blank : isBlank char = false
  cut?_eq : ∀ rest, (∀ next ∈ rest.head?, stops next = true) →
    cut? goal char (seen ++ rest) = some ⟨lexeme, rest⟩

namespace Cuts

variable {goal : Goal} {char : Char} {seen : List Char} {lexeme : Lexeme}
  {stops stops' : Char → Bool}

theorem mono (hcuts : Cuts goal char seen lexeme stops)
    (hstops : ∀ char, stops' char = true → stops char = true) :
    Cuts goal char seen lexeme stops' :=
  ⟨hcuts.not_blank, fun rest hrest =>
    hcuts.cut?_eq rest fun next hnext => hstops next (hrest next hnext)⟩

end Cuts

variable {text mark : String} {char : Char} {goal : Goal} {rest seen chars : List Char}
  {scan final after : Scan} {lexeme : Lexeme}

theorem isWord_iff : isWord text = true ↔
    ∃ char rest, text.toList = char :: rest ∧ isWordChar char = true ∧ char.isDigit = false ∧
      rest.all isWordChar = true := by
  unfold isWord
  cases text.toList with
  | nil => simp
  | cons char rest => simp [and_assoc]

/-- The code points of the letters and digits of ASCII. -/
theorem toNat_of_alphanum (halphanum : char.isAlphanum = true) :
    48 ≤ char.toNat ∧ char.toNat ≤ 122 := by
  have hcodes : 'A'.toNat = 65 ∧ 'Z'.toNat = 90 ∧ 'a'.toNat = 97 ∧ 'z'.toNat = 122 ∧
      '0'.toNat = 48 ∧ '9'.toNat = 57 := by decide
  rcases Bool.or_eq_true_iff.1 halphanum with halpha | hdigit
  · rcases Bool.or_eq_true_iff.1 halpha with hupper | hlower
    · have hbounds : 'A'.toNat ≤ char.toNat ∧ char.toNat ≤ 'Z'.toNat := of_decide_eq_true hupper
      omega
    · have hbounds : 'a'.toNat ≤ char.toNat ∧ char.toNat ≤ 'z'.toNat :=
        (Bool.and_eq_true_iff.1 hlower).imp of_decide_eq_true of_decide_eq_true
      omega
  · have hbounds := Char.isDigit_iff_toNat.1 hdigit
    omega

theorem not_blank_of_alphanum (halphanum : char.isAlphanum = true) : isBlank char = false := by
  have hbounds := toNat_of_alphanum halphanum
  simp only [isBlank, CharSet.contains, spaces, lineBreaks, List.any_cons, List.any_nil,
    Bool.or_false, Bool.or_eq_false_iff, Bool.and_eq_false_iff, decide_eq_false_iff_not]
  omega

theorem not_blank_of_wordChar (hword : isWordChar char = true) : isBlank char = false := by
  simp only [isWordChar, Bool.or_eq_true, Bool.and_eq_true, beq_iff_eq, Bool.not_eq_true'] at hword
  rcases hword with ((halphanum | rfl) | rfl) | ⟨⟨_, hspace⟩, hbreak⟩
  · exact not_blank_of_alphanum halphanum
  · decide
  · decide
  · exact Bool.or_eq_false_iff.2 ⟨hspace, hbreak⟩

theorem not_template_of_wordChar (hword : isWordChar char = true) :
    char ≠ '\x60' ∧ char ≠ '\x7d' := by
  constructor <;> (rintro rfl; exact absurd hword (by decide))

theorem not_blank_of_scan (hscan : scan? goal char rest = some scan) : isBlank char = false := by
  unfold scan? at hscan
  split at hscan
  · rename_i hzero
    rw [beq_iff_eq.1 hzero]
    decide
  split at hscan
  · rename_i hdigit
    exact not_blank_of_alphanum (by simp [Char.isAlphanum, hdigit])
  split at hscan
  · rename_i hword
    exact not_blank_of_wordChar hword
  split at hscan
  · rename_i hquote
    simp only [Bool.or_eq_true, beq_iff_eq] at hquote
    rcases hquote with rfl | rfl <;> decide
  split at hscan
  · rename_i hpoint
    rw [Bool.and_eq_true, beq_iff_eq] at hpoint
    rw [hpoint.1]
    decide
  split at hscan
  · rename_i hslash
    rw [Bool.and_eq_true, beq_iff_eq] at hslash
    rw [hslash.1]
    decide
  · cases hscan

theorem Scan.cut?_append (hrun : chars.foldlM Scan.next scan = some final)
    (hlexeme : final.lexeme? (seen ++ chars) = some lexeme)
    (hrest : ∀ char ∈ rest.head?, final.endsBefore char = true) :
    scan.cut? seen (chars ++ rest) = some ⟨lexeme, rest⟩ := by
  induction chars generalizing scan seen with
  | nil =>
    cases hrun
    rw [List.append_nil] at hlexeme
    cases rest with
    | nil => rw [List.nil_append, Scan.cut?, hlexeme, Option.map_some]
    | cons char rest =>
      have hends := hrest char rfl
      have hnext : final.next char = none := by
        rw [Scan.endsBefore, Bool.and_eq_true, Option.isNone_iff_eq_none] at hends
        exact hends.1
      rw [List.nil_append, Scan.cut?, hnext]
      simp only [if_pos hends, hlexeme, Option.map_some]
  | cons char chars ih =>
    rw [List.foldlM_cons] at hrun
    obtain ⟨after, hafter, hrun⟩ := Option.bind_eq_some_iff.1 hrun
    rw [List.cons_append, Scan.cut?, hafter]
    exact ih hrun (by rwa [List.append_assoc, List.singleton_append])

theorem scan?_append (hscan : scan? goal char rest = some scan) (more : List Char) :
    scan? goal char (rest ++ more) = some scan := by
  cases rest with
  | nil =>
    by_cases hpoint : char = '.'
    · subst hpoint
      cases hscan
    · rw [← hscan]
      simp [scan?, hpoint]
  | cons next rest => exact hscan

/-- What the automaton recognises as one lexeme is cut off as that. -/
theorem exists_cuts_of_scanned (hscanned : scanned? goal chars = some scan)
    (hlexeme : scan.lexeme? chars = some lexeme) :
    ∃ char seen, chars = char :: seen ∧ Cuts goal char seen lexeme scan.endsBefore := by
  cases chars with
  | nil => cases hscanned
  | cons char chars =>
    obtain ⟨first, hfirst, hrun⟩ := Option.bind_eq_some_iff.1 hscanned
    refine ⟨char, chars, rfl, not_blank_of_scan hfirst, fun rest hrest => ?_⟩
    rw [cut?, scan?_append hfirst]
    exact Scan.cut?_append hrun hlexeme hrest

/-- Not the end of a name or a number. -/
def isWordEnd (char : Char) : Bool :=
  !isWordChar char

theorem foldlM_word (hchars : chars.all isWordChar = true) :
    chars.foldlM Scan.next .word = some .word := by
  induction chars with
  | nil => rfl
  | cons char chars ih =>
    rw [List.all_cons, Bool.and_eq_true] at hchars
    rw [List.foldlM_cons, Scan.next, if_pos hchars.1]
    exact ih hchars.2

theorem exists_cuts_of_isWord (hword : isWord text = true) (goal : Goal) :
    ∃ char seen, text.toList = char :: seen ∧ isWordChar char = true ∧
      Cuts goal char seen (.word text) isWordEnd := by
  obtain ⟨char, rest, htext, hchar, hdigit, hrest⟩ := isWord_iff.1 hword
  have hscanned : scanned? goal text.toList = some .word := by
    have hzero : (char == '0') = false := by
      rw [beq_eq_false_iff_ne]
      rintro rfl
      cases hdigit
    rw [htext, scanned?, scan?, hzero, hdigit, hchar]
    exact foldlM_word hrest
  obtain ⟨_, _, hchars, hcuts⟩ :=
    exists_cuts_of_scanned hscanned (show _ = some (.word text) by simp [Scan.lexeme?])
  cases htext.symm.trans hchars
  refine ⟨char, rest, htext, hchar, hcuts.mono fun next hend => ?_⟩
  simp only [isWordEnd, Bool.not_eq_true'] at hend
  simp [Scan.endsBefore, Scan.next, hend, Scan.isNumber]

/-- The characters that make a longer mark out of a mark. -/
def continuations (mark : String) : List Char :=
  marks.filterMap fun longer =>
    if mark.toList.isPrefixOf longer.toList then longer.toList[mark.toList.length]? else none

theorem isPrefixOf_append (front back : List Char) :
    front.isPrefixOf (front ++ back) = true :=
  List.isPrefixOf_iff_prefix.2 (List.prefix_append front back)

/-- Where nothing makes a longer mark out of a mark, only the mark itself is found. -/
theorem eq_of_not_continued {found : String} (hfront : mark.toList <+: found.toList)
    (hfound : found.toList <+: mark.toList ++ rest) (hmem : found ∈ marks)
    (hrest : ∀ char ∈ rest.head?, char ∉ continuations mark) : found = mark := by
  obtain ⟨tail, htail⟩ := hfront
  cases tail with
  | nil => exact String.toList_inj.1 (by simpa using htail.symm)
  | cons char tail =>
    rw [← htail, List.prefix_append_right_inj] at hfound
    obtain ⟨more, hmore⟩ := hfound
    have hcontinues : char ∈ continuations mark := by
      rw [continuations, List.mem_filterMap]
      refine ⟨found, hmem, ?_⟩
      rw [← htail, isPrefixOf_append, if_pos rfl]
      simp
    exact absurd hcontinues (hrest char (by simp [← hmore]))

theorem longestMark?_append (hmark : mark ∈ marks)
    (hrest : ∀ char ∈ rest.head?, char ∉ continuations mark) :
    longestMark? (mark.toList ++ rest) = some mark := by
  have hsorted : marks.Pairwise fun first second =>
      second.toList.length ≤ first.toList.length := by decide
  unfold longestMark?
  cases hfind : marks.find? fun other => other.toList.isPrefixOf (mark.toList ++ rest) with
  | none => exact absurd (isPrefixOf_append _ _) (List.find?_eq_none.1 hfind mark hmark)
  | some found =>
    obtain ⟨hfound, before, behind, hsplit, hbefore⟩ := List.find?_eq_some_iff_append.1 hfind
    rw [List.isPrefixOf_iff_prefix] at hfound
    -- The marks are tried from the longest on, so the one that is found is no shorter.
    have hlength : mark.toList.length ≤ found.toList.length := by
      rw [hsplit, List.pairwise_append, List.pairwise_cons] at hsorted
      rw [hsplit, List.mem_append, List.mem_cons] at hmark
      rcases hmark with hmark | rfl | hmark
      · have hnot := hbefore mark hmark
        rw [isPrefixOf_append] at hnot
        cases hnot
      · exact Nat.le_refl _
      · exact hsorted.2.1.1 mark hmark
    have hfront : mark.toList <+: found.toList :=
      List.prefix_of_prefix_length_le (List.prefix_append _ _) hfound hlength
    rw [eq_of_not_continued hfront hfound (List.mem_of_find?_eq_some hfind) hrest]

/-- A character that starts no name, number, string or space. -/
def startsMark (char : Char) : Bool :=
  !spaces.contains char && char != '0' && !char.isDigit && !isWordChar char &&
    char != '\'' && char != '"'

theorem scan?_eq_none (hstart : startsMark char = true)
    (hpoint : (char == '.' && rest.head?.any Char.isDigit) = false)
    (hslash : (char == '/' && goal == .operand) = false) : scan? goal char rest = none := by
  simp only [startsMark, Bool.and_eq_true, Bool.not_eq_true', bne_iff_ne, ne_eq] at hstart
  obtain ⟨⟨⟨⟨⟨-, hzero⟩, hdigit⟩, hword⟩, hquote⟩, hdouble⟩ := hstart
  simp [scan?, hzero, hdigit, hword, hquote, hdouble, hpoint, hslash]

/-- The marks that start with a slash. -/
def slashMarks : List String :=
  ["/", "/=", "//", "/*"]

/-- What may stand right behind a mark.  A point in front of a digit belongs to a number. -/
def markStops (mark : String) (char : Char) : Bool :=
  !(continuations mark).contains char && !(mark == "." && char.isDigit)

/-- A space ends every mark. -/
theorem markStops_space (mark : String) : markStops mark ' ' = true := by
  have hmarks : ∀ longer ∈ marks, ' ' ∉ longer.toList := by decide
  have hfree : ' ' ∉ continuations mark := by
    intro hmem
    obtain ⟨longer, hlonger, hspace⟩ := List.mem_filterMap.1 hmem
    split at hspace
    · exact hmarks longer hlonger (List.mem_of_getElem? hspace)
    · cases hspace
  have hdigit : ' '.isDigit = false := by decide
  simp [markStops, hfree, hdigit]

/-- A name may stand right behind a point. -/
theorem exists_markStops_of_isWord (hword : isWord text = true) :
    ∃ char rest, text.toList = char :: rest ∧ markStops "." char = true := by
  obtain ⟨char, rest, htext, hchar, hdigit, -⟩ := isWord_iff.1 hword
  have hcontinued : (continuations ".").all isWordEnd = true := by decide
  have hfree : char ∉ continuations "." := by
    intro hmem
    have hend := List.all_eq_true.1 hcontinued char hmem
    rw [isWordEnd, hchar] at hend
    cases hend
  exact ⟨char, rest, htext, by simp [markStops, hfree, hdigit]⟩

theorem markCut?_append (hmark : mark ∈ marks) (hcomment : mark ∉ commentMarks)
    (hrest : ∀ char ∈ rest.head?, char ∉ continuations mark) :
    markCut? (mark.toList ++ rest) = some ⟨.mark mark, rest⟩ := by
  rw [markCut?, longestMark?_append hmark hrest, Option.bind_some, if_neg hcomment, List.drop_left]

/-- A point in front of a digit would be no mark. -/
theorem point_not_number (hmark : mark ∈ marks) (htext : mark.toList = char :: seen)
    (hrest : ∀ next ∈ rest.head?, markStops mark next = true) :
    (char == '.' && (seen ++ rest).head?.any Char.isDigit) = false := by
  have hpoints : ∀ mark ∈ marks, mark.toList.head? = some '.' → mark = "." ∨ mark = "..." := by
    decide
  rw [Bool.and_eq_false_imp, beq_iff_eq]
  rintro rfl
  rcases hpoints mark hmark (by rw [htext]; rfl) with rfl | rfl
  · cases htext
    cases rest with
    | nil => rfl
    | cons next rest =>
      have hnext := hrest next rfl
      simp only [markStops, Bool.and_eq_true, Bool.not_eq_true', beq_self_eq_true,
        Bool.true_and] at hnext
      exact hnext.2
  · cases htext
    rfl

theorem exists_cuts_of_mark {mark : String} {goal : Goal} (hmark : mark ∈ marks)
    (hcomment : mark ∉ commentMarks) (hgoal : goal ≠ .operand ∨ mark ∉ slashMarks) :
    ∃ char seen, mark.toList = char :: seen ∧
      Cuts goal char seen (.mark mark) (markStops mark) := by
  have hheads : ∀ mark ∈ marks, mark.toList.head?.any startsMark = true ∧
      mark.toList.head?.any isBlank = false := by decide
  have hslashes : ∀ mark ∈ marks, mark.toList.head? = some '/' → mark ∈ slashMarks := by
    decide
  obtain ⟨hhead, hblank⟩ := hheads mark hmark
  have hslash := hslashes mark hmark
  cases htext : mark.toList with
  | nil =>
    rw [htext] at hhead
    cases hhead
  | cons char seen =>
    rw [htext] at hhead hslash hblank
    have hregex : (char == '/' && goal == .operand) = false := by
      rw [Bool.and_eq_false_imp, beq_iff_eq]
      rintro rfl
      rcases hgoal with hgoal | hgoal
      · exact beq_eq_false_iff_ne.2 hgoal
      · exact absurd (hslash rfl) hgoal
    refine ⟨char, seen, rfl, hblank, fun rest hrest => ?_⟩
    have hends : ∀ next ∈ rest.head?, next ∉ continuations mark := fun next hnext => by
      have hstops := (Bool.and_eq_true_iff.1 (hrest next hnext)).1
      simpa using hstops
    rw [cut?, scan?_eq_none hhead (point_not_number hmark htext hrest) hregex]
    have hcut := markCut?_append hmark hcomment hends
    rw [htext] at hcut
    exact hcut

/-- Digits and nothing else so far. -/
def Scan.isDigits : Scan → Bool
  | .zero | .octal | .integer => true
  | _ => false

theorem isDigit_of_isDigitIn (hdigit : isDigitIn 8 char = true) : char.isDigit = true := by
  unfold isDigitIn digitValue? at hdigit
  split at hdigit
  · assumption
  split at hdigit
  · simp at hdigit
    omega
  split at hdigit
  · simp at hdigit
    omega
  · cases hdigit

theorem isDigits_of_next (hnext : scan.next char = some after) (hafter : after.isDigits = true) :
    scan.isDigits = true ∧ char.isDigit = true := by
  cases scan <;> simp only [Scan.next] at hnext <;>
    grind [Scan.isDigits, Scan.nextZero, Scan.nextDecimal, Scan.nextExponent, Scan.nextQuoted,
      Scan.nextPattern, Scan.nextClass, isDigit_of_isDigitIn]

theorem all_digits_of_foldlM (hrun : chars.foldlM Scan.next scan = some final)
    (hfinal : final.isDigits = true) : scan.isDigits = true ∧ chars.all Char.isDigit = true := by
  induction chars generalizing scan with
  | nil =>
    cases hrun
    exact ⟨hfinal, rfl⟩
  | cons char chars ih =>
    rw [List.foldlM_cons] at hrun
    obtain ⟨after, hafter, hrun⟩ := Option.bind_eq_some_iff.1 hrun
    obtain ⟨hdigits, hchars⟩ := ih hrun
    obtain ⟨hscan, hchar⟩ := isDigits_of_next hafter hdigits
    exact ⟨hscan, by rw [List.all_cons, hchar, hchars]; rfl⟩

theorem endsBefore_point (hscan : scan.isLiteral = true) (hdigits : scan.isDigits = false) :
    scan.endsBefore '.' = true := by
  cases scan <;> cases hdigits <;> cases hscan <;> rfl

/-- In the middle of a number. -/
def Scan.isNumeric : Scan → Bool
  | .point | .exponentMark | .exponentSign | .radixMark _ => true
  | scan => scan.isNumber

theorem Scan.isNumber_of_isNumeric (hnumeric : scan.isNumeric = true)
    (hliteral : scan.isLiteral = true) : scan.isNumber = true := by
  rw [Scan.isLiteral, Bool.or_eq_true, Bool.or_eq_true, beq_iff_eq, beq_iff_eq] at hliteral
  rcases hliteral with (hnumber | rfl) | rfl
  · exact hnumber
  · cases hnumeric
  · cases hnumeric

theorem isNumeric_of_next (hnext : scan.next char = some after) (hscan : scan.isNumeric = true) :
    after.isNumeric = true := by
  cases scan <;> simp only [Scan.next] at hnext <;>
    grind [Scan.isNumeric, Scan.isNumber, Scan.nextZero, Scan.nextDecimal, Scan.nextExponent]

theorem isNumeric_of_foldlM (hrun : chars.foldlM Scan.next scan = some final)
    (hscan : scan.isNumeric = true) : final.isNumeric = true := by
  induction chars generalizing scan with
  | nil =>
    cases hrun
    exact hscan
  | cons char chars ih =>
    rw [List.foldlM_cons] at hrun
    obtain ⟨after, hafter, hrun⟩ := Option.bind_eq_some_iff.1 hrun
    exact ih hrun (isNumeric_of_next hafter hscan)

theorem isDigits_of_scanned (hscanned : scanned? goal chars = some scan)
    (hdigits : scan.isDigits = true) : chars.all Char.isDigit = true := by
  cases chars with
  | nil => cases hscanned
  | cons char chars =>
    obtain ⟨first, hfirst, hrun⟩ := Option.bind_eq_some_iff.1 hscanned
    obtain ⟨hstart, hchars⟩ := all_digits_of_foldlM hrun hdigits
    have hchar : char.isDigit = true := by
      unfold scan? at hfirst
      split at hfirst
      · rename_i hzero
        rw [beq_iff_eq.1 hzero]
        rfl
      split at hfirst
      · assumption
      · grind [Scan.isDigits]
    rw [List.all_cons, hchar, hchars]
    rfl

/-- What may follow an expression. -/
def closers : List Char :=
  [' ', ')', ']', ',', '\x7d', ';']

def closes (char : Char) : Bool :=
  closers.contains char

/-- What may follow an expression that binds as tightly as a call. -/
def enders : List Char :=
  [' ', '\n', ')', ']', ',', '\x7d', ';', ':', '(', '[', '\x60', '+', '-']

/-- What may follow a text.  A point behind nothing but digits would belong to the number. -/
def endsBefore (text : String) (char : Char) : Bool :=
  enders.contains char || (char == '.' && !text.toList.all Char.isDigit)

theorem endsBefore_of_closes {text : String} {char : Char} (hcloses : closes char = true) :
    endsBefore text char = true := by
  have hall : closers.all enders.contains = true := by decide
  rw [endsBefore, List.all_eq_true.1 hall char (List.contains_iff_mem.1 hcloses)]
  rfl

theorem isWordEnd_of_endsBefore (hends : endsBefore text char = true) : isWordEnd char = true := by
  have hall : enders.all isWordEnd = true := by decide
  rw [endsBefore, Bool.or_eq_true, Bool.and_eq_true, beq_iff_eq] at hends
  rcases hends with hends | ⟨rfl, -⟩
  · exact List.all_eq_true.1 hall char (List.contains_iff_mem.1 hends)
  · decide

theorem Scan.endsBefore_of_enders (hscan : scan.isLiteral = true) :
    enders.all scan.endsBefore = true := by
  cases scan <;> cases hscan <;> rfl

theorem endsBefore_of_scanned (hscanned : scanned? .operand text.toList = some scan)
    (hscan : scan.isLiteral = true) (hends : endsBefore text char = true) :
    scan.endsBefore char = true := by
  rw [endsBefore, Bool.or_eq_true, Bool.and_eq_true, beq_iff_eq] at hends
  rcases hends with hends | ⟨rfl, hdigits⟩
  · exact List.all_eq_true.1 (scan.endsBefore_of_enders hscan) char (List.contains_iff_mem.1 hends)
  · apply endsBefore_point hscan
    by_contra hscan
    rw [isDigits_of_scanned hscanned (by simpa using hscan)] at hdigits
    cases hdigits

/-- The lexeme of a literal. -/
def literalLexeme (text : String) : Lexeme :=
  if text ∈ constantWords then .word text else .literal text

theorem exists_scan_of_isLiteral (hliteral : isLiteral text = true)
    (hconstant : text ∉ constantWords) :
    ∃ scan, scanned? .operand text.toList = some scan ∧ scan.isLiteral = true := by
  have hcontains : constantWords.contains text = false := by simpa using hconstant
  rw [isLiteral, hcontains, Bool.false_or] at hliteral
  exact (Option.any_eq_true _ _).1 hliteral

theorem exists_cuts_of_literal (hliteral : isLiteral text = true) :
    ∃ char seen, text.toList = char :: seen ∧ (char ≠ '\x60' ∧ char ≠ '\x7d') ∧
      Cuts .operand char seen (literalLexeme text) (endsBefore text) := by
  by_cases hconstant : text ∈ constantWords
  · have hwords : ∀ word ∈ constantWords, isWord word = true := by decide
    obtain ⟨char, seen, htext, hchar, hcuts⟩ :=
      exists_cuts_of_isWord (hwords text hconstant) .operand
    rw [literalLexeme, if_pos hconstant]
    exact ⟨char, seen, htext, not_template_of_wordChar hchar,
      hcuts.mono fun _ => isWordEnd_of_endsBefore⟩
  · obtain ⟨scan, hscanned, hscan⟩ := exists_scan_of_isLiteral hliteral hconstant
    have hlexeme : scan.lexeme? text.toList = some (.literal text) := by
      have hword : scan ≠ .word := by
        rintro rfl
        cases hscan
      rw [Scan.lexeme?, if_neg hword, if_pos hscan, String.ofList_toList]
    obtain ⟨char, seen, htext, hcuts⟩ := exists_cuts_of_scanned hscanned hlexeme
    rw [literalLexeme, if_neg hconstant]
    refine ⟨char, seen, htext, ?_, hcuts.mono fun _ => endsBefore_of_scanned hscanned hscan⟩
    rw [htext] at hscanned
    constructor <;> (rintro rfl; cases hscanned)

/-- Digits alone are a number. -/
theorem isNumber_of_digits (hliteral : isLiteral text = true)
    (hdigits : text.toList.all Char.isDigit = true) : isNumber text = true := by
  have hconstants : ∀ word ∈ constantWords, word.toList.all Char.isDigit = false := by
    decide
  rw [isLiteral, Bool.or_eq_true, List.contains_iff_mem, Option.any_eq_true] at hliteral
  rcases hliteral with hconstant | ⟨scan, hscanned, hscan⟩
  · rw [hconstants text hconstant] at hdigits
    cases hdigits
  · rw [isNumber, hscanned, Option.any_some]
    cases htext : text.toList with
    | nil =>
      rw [htext] at hscanned
      cases hscanned
    | cons char rest =>
      rw [htext, List.all_cons, Bool.and_eq_true] at hdigits
      rw [htext] at hscanned
      obtain ⟨first, hfirst, hrun⟩ := Option.bind_eq_some_iff.1 hscanned
      have hnumeric : first.isNumeric = true := by
        rw [scan?, if_pos hdigits.1] at hfirst
        split at hfirst <;> cases hfirst <;> rfl
      exact Scan.isNumber_of_isNumeric (isNumeric_of_foldlM hrun hnumeric) hscan

end Debundle.Lexer
