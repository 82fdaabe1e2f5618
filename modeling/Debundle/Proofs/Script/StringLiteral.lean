import Debundle.Proofs.Script.Operand

/-!
# String literals are read back

A string in a script is a sequence of code units, and a literal is read by the rules of the
language: a backslash starts an escape, which may be a letter, two or four hexadecimal digits, a
code point in braces, up to three octal digits, a line break that stands for nothing, or any other
character, which stands for itself.  A reader of all of them gives back every text that was
written as a literal, whatever stands behind it.
-/

namespace Debundle.StringLiteral

open Lexer

/-- The code units of a code point. -/
def pointUnits (point : Nat) : List Nat :=
  if point < 0x10000 then [point]
  else [0xD800 + (point - 0x10000) / 0x400, 0xDC00 + (point - 0x10000) % 0x400]

/-- The code units of a text. -/
def textUnits (text : List Char) : List Nat :=
  text.flatMap fun char => pointUnits char.toNat

/-- The text that has these code units.  Two of them may be one character. -/
def unitsText? : List Nat → Option (List Char)
  | [] => some []
  | [unit] => if unit < 0xD800 ∨ 0xDFFF < unit then some [Char.ofNat unit] else none
  | unit :: next :: rest =>
    if unit < 0xD800 ∨ 0xDFFF < unit then
      (unitsText? (next :: rest)).map (Char.ofNat unit :: ·)
    else if unit < 0xDC00 ∧ 0xDC00 ≤ next ∧ next ≤ 0xDFFF then
      (unitsText? rest).map
        (Char.ofNat (0x10000 + (unit - 0xD800) * 0x400 + (next - 0xDC00)) :: ·)
    else none

/-- The number with these digits. -/
def digitsValue? (base : Nat) (digits : List Char) : Option Nat :=
  digits.foldlM (fun value digit => if isDigitIn base digit then
    (digitValue? digit).map (base * value + ·) else none) 0

/-- The code units of an escape and the number of characters that it has. -/
structure Escape where
  units : List Nat
  length : Nat

/-- A letter and a fixed number of hexadecimal digits. -/
def hexEscape? (width : Nat) (chars : List Char) : Option Escape :=
  if chars.length < width then none
  else (digitsValue? 16 (chars.take width)).map fun unit => ⟨[unit], width + 1⟩

/-- A letter and a code point in braces. -/
def pointEscape? (chars : List Char) : Option Escape :=
  let digits := chars.takeWhile (· != '\x7d')
  if digits.isEmpty ∨ chars.length = digits.length then none
  else (digitsValue? 16 digits).bind fun point =>
    if point ≤ 0x10FFFF then some ⟨pointUnits point, digits.length + 3⟩ else none

/-- Octal digits, as many as make a number below 256. -/
def octalEscape? (chars : List Char) : Option Escape :=
  let digits := (chars.takeWhile (isDigitIn 8)).take
    (if chars.head?.any (isDigitIn 4) then 3 else 2)
  (digitsValue? 8 digits).map fun unit => ⟨[unit], digits.length⟩

/-- The letters that stand for a control character. -/
def letterUnit? : Char → Option Nat
  | 'b' => some 0x8
  | 't' => some 0x9
  | 'n' => some 0xA
  | 'v' => some 0xB
  | 'f' => some 0xC
  | 'r' => some 0xD
  | _ => none

/-- The escape at the start of a text, behind its backslash. -/
def escape? (char : Char) (rest : List Char) : Option Escape :=
  if char == 'x' then hexEscape? 2 rest
  else if char == 'u' then
    if rest.head? == some '\x7b' then pointEscape? rest.tail else hexEscape? 4 rest
  else if lineBreaks.contains char then
    some ⟨[], if char == '\r' && rest.head? == some '\n' then 2 else 1⟩
  else if isDigitIn 8 char then octalEscape? (char :: rest)
  else if char.isDigit then none
  else some ⟨(letterUnit? char).elim (pointUnits char.toNat) ([·]), 1⟩

/-- The code units of a literal, and what stands behind it. -/
structure Reading where
  units : List Nat
  rest : List Char
  deriving DecidableEq

def Reading.behind (units : List Nat) (reading : Reading) : Reading :=
  ⟨units ++ reading.units, reading.rest⟩

/-- A literal behind its first quote, up to the next quote that is not escaped. -/
def readBody (quote : Char) (chars : List Char) : Option Reading :=
  match chars with
  | [] => none
  | char :: rest =>
    if char = quote then some ⟨[], rest⟩
    else if char = '\\' then
      (rest.head?.bind fun letter => escape? letter rest.tail).bind fun escape =>
        (readBody quote (rest.drop escape.length)).map (·.behind escape.units)
    else if lineBreaks.contains char then none
    else (readBody quote rest).map (·.behind (pointUnits char.toNat))
termination_by chars.length
decreasing_by
  · rw [List.length_drop, List.length_cons]
    omega
  · exact Nat.lt_succ_self _

/-- The first literal of a text, in single or double quotes. -/
def readLiteral : List Char → Option Reading
  | '\'' :: rest => readBody '\'' rest
  | '"' :: rest => readBody '"' rest
  | _ => none

/-- The characters of the inside of a literal that no backslash stands in front of, where
a backslash that is escaped itself does not count. -/
def unescaped : List Char → List Char
  | [] => []
  | '\\' :: _ :: rest => unescaped rest
  | char :: rest => char :: unescaped rest

/-- The control characters of ASCII. -/
def isControl (char : Char) : Bool :=
  char.toNat < 0x20 || char.toNat == 0x7F

/-! ## Characters and code units -/

theorem unitsText?_pointUnits (char : Char) (units : List Nat) :
    unitsText? (pointUnits char.toNat ++ units) = (unitsText? units).map (char :: ·) := by
  have hvalid : char.toNat < 0xD800 ∨ 0xDFFF < char.toNat ∧ char.toNat < 0x110000 := char.valid
  by_cases hsmall : char.toNat < 0x10000
  · have hplain : char.toNat < 0xD800 ∨ 0xDFFF < char.toNat := by omega
    cases units with
    | nil => simp [pointUnits, hsmall, unitsText?, hplain]
    | cons next rest => simp [pointUnits, hsmall, unitsText?, hplain]
  · have hpoint : 0x10000 + (0xD800 + (char.toNat - 0x10000) / 0x400 - 0xD800) * 0x400 +
        (0xDC00 + (char.toNat - 0x10000) % 0x400 - 0xDC00) = char.toNat := by omega
    simp only [pointUnits, hsmall, if_false, List.cons_append, List.nil_append, unitsText?]
    rw [if_neg (by omega), if_pos (by omega), hpoint, Char.ofNat_toNat]

/-- A text is given back by its code units. -/
theorem unitsText?_textUnits (text : List Char) : unitsText? (textUnits text) = some text := by
  induction text with
  | nil => rfl
  | cons char rest ih =>
    rw [textUnits, List.flatMap_cons, unitsText?_pointUnits]
    exact congrArg (Option.map (char :: ·)) ih

/-! ## One character of a literal -/

/-- How a character is written: as itself or as an escape. -/
inductive Spelling (char : Char) : List Char → Prop where
  | plain (hquote : char ≠ '\'') (hbackslash : char ≠ '\\')
      (hbreak : lineBreaks.contains char = false) (hcontrol : isControl char = false) :
      Spelling char [char]
  | escaped {letter : Char} {digits : List Char} (hletter : isControl letter = false)
      (hbreak : lineBreaks.contains letter = false) (hdigits : digits.all (isDigitIn 16) = true)
      (hescape : ∀ rest, escape? letter (digits ++ rest) =
        some ⟨pointUnits char.toNat, digits.length + 1⟩) :
      Spelling char ('\\' :: letter :: digits)

variable {digits spelled : List Char} {char digit : Char} {value : Nat}

theorem hexEscape?_append {width unit : Nat} (hlength : digits.length = width)
    (hvalue : digitsValue? 16 digits = some unit) (rest : List Char) :
    hexEscape? width (digits ++ rest) = some ⟨[unit], width + 1⟩ := by
  have hlong : ¬ (digits ++ rest).length < width := by rw [List.length_append]; omega
  rw [hexEscape?, if_neg hlong, List.take_left' hlength, hvalue]
  rfl

theorem spelling_of_shortEscape {letter : Char} (hshort : shortEscape? char = some letter) :
    Spelling char ['\\', letter] := by
  have htable : (char, letter) ∈ [('\\', '\\'), ('\'', '\''), ('\n', 'n'), ('\r', 'r'), ('\t', 't'),
      ('\x08', 'b'), ('\x0c', 'f'), ('\x0b', 'v')] := by
    unfold shortEscape? at hshort
    split at hshort <;> cases hshort <;> decide
  simp only [List.mem_cons, Prod.mk.injEq, List.not_mem_nil, or_false] at htable
  rcases htable with ⟨rfl, rfl⟩ | ⟨rfl, rfl⟩ | ⟨rfl, rfl⟩ | ⟨rfl, rfl⟩ | ⟨rfl, rfl⟩ |
    ⟨rfl, rfl⟩ | ⟨rfl, rfl⟩ | ⟨rfl, rfl⟩ <;>
  exact .escaped rfl rfl rfl fun rest => rfl

/-- The escapes of two digits. -/
theorem hexDigits_two (hvalue : value < 0x80) :
    (hexDigits 2 value).length = 2 ∧ digitsValue? 16 (hexDigits 2 value) = some value ∧
      (hexDigits 2 value).all (isDigitIn 16) = true := by
  revert value
  decide

theorem spelling_of_control (hcontrol : isControl char = true) :
    Spelling char ('\\' :: 'x' :: hexDigits 2 char.toNat) := by
  have hsmall : char.toNat < 0x80 := by
    simp only [isControl, Bool.or_eq_true, decide_eq_true_eq, beq_iff_eq] at hcontrol
    omega
  obtain ⟨hlength, hvalue, hdigits⟩ := hexDigits_two hsmall
  refine .escaped rfl rfl hdigits fun rest => ?_
  rw [hlength, pointUnits, if_pos (by omega)]
  exact hexEscape?_append hlength hvalue rest

/-- The escapes of four digits. -/
theorem hexDigits_four (hvalue : value = 0x2028 ∨ value = 0x2029) :
    (hexDigits 4 value).length = 4 ∧ digitsValue? 16 (hexDigits 4 value) = some value ∧
      (hexDigits 4 value).all (isDigitIn 16) = true ∧ (hexDigits 4 value).head? = some '2' := by
  rcases hvalue with rfl | rfl <;> decide

theorem spelling_of_separator (hchar : char.toNat = 0x2028 ∨ char.toNat = 0x2029) :
    Spelling char ('\\' :: 'u' :: hexDigits 4 char.toNat) := by
  obtain ⟨hlength, hvalue, hdigits, hhead⟩ := hexDigits_four hchar
  refine .escaped rfl rfl hdigits fun rest => ?_
  have hbrace : (hexDigits 4 char.toNat ++ rest).head? = some '2' := by
    rw [List.head?_append, hhead, Option.some_or]
  have hescape : escape? 'u' (hexDigits 4 char.toNat ++ rest) =
      hexEscape? 4 (hexDigits 4 char.toNat ++ rest) := by
    simp [escape?, hbrace]
  rw [hescape, hexEscape?_append hlength hvalue, hlength, pointUnits, if_pos (by omega)]

theorem spelling_encodeChar (char : Char) : Spelling char (encodeChar char) := by
  rw [encodeChar]
  cases hshort : shortEscape? char with
  | some letter => exact spelling_of_shortEscape hshort
  | none =>
    by_cases hseparator : char.toNat = 0x2028 ∨ char.toNat = 0x2029
    · simpa [hseparator] using spelling_of_separator hseparator
    · by_cases hcontrol : char.toNat < 0x20 ∨ char.toNat = 0x7F
      · simpa [hseparator, hcontrol] using spelling_of_control (by simpa [isControl] using hcontrol)
      · simp only [hseparator, hcontrol, if_false]
        refine .plain ?_ ?_ ?_ (by simpa [isControl] using hcontrol)
        · rintro rfl
          cases hshort
        · rintro rfl
          cases hshort
        · -- A line break is a control character or one of the two separators.
          simp only [CharSet.contains, lineBreaks, List.any_cons, List.any_nil, Bool.or_false,
            Bool.or_eq_false_iff, Bool.and_eq_false_iff, decide_eq_false_iff_not]
          omega

/-! ## The whole literal -/

theorem readBody_spelling (hspelled : Spelling char spelled) (rest : List Char) :
    readBody '\'' (spelled ++ rest) =
      (readBody '\'' rest).map (·.behind (pointUnits char.toNat)) := by
  cases hspelled with
  | plain hquote hbackslash hbreak _ =>
    rw [List.singleton_append, readBody]
    simp [hquote, hbackslash, hbreak]
  | @escaped letter digits _ _ _ hescape =>
    rw [List.cons_append, List.cons_append, readBody]
    simp [hescape]

/-- Reading goes on behind each character, whatever comes next. -/
theorem readBody_flatMap (text rest : List Char) :
    readBody '\'' (text.flatMap encodeChar ++ '\'' :: rest) = some ⟨textUnits text, rest⟩ := by
  induction text with
  | nil =>
    rw [List.flatMap_nil, List.nil_append, readBody, if_pos rfl]
    rfl
  | cons char text ih =>
    rw [List.flatMap_cons, List.append_assoc, readBody_spelling (spelling_encodeChar char), ih]
    rfl

theorem readLiteral_encode (text rest : List Char) :
    readLiteral (encode text ++ rest) = some ⟨textUnits text, rest⟩ := by
  rw [encode, List.cons_append, List.append_assoc]
  exact readBody_flatMap text rest

theorem encode_injective : Function.Injective encode := by
  intro text other hencoded
  have hunits : textUnits text = textUnits other := by
    have hread := readLiteral_encode text []
    rw [hencoded, readLiteral_encode other []] at hread
    exact (congrArg Reading.units (Option.some.inj hread)).symm
  have htext := unitsText?_textUnits text
  rw [hunits, unitsText?_textUnits other] at htext
  exact (Option.some.inj htext).symm

theorem literal_injective : Function.Injective literal := by
  intro text other hliteral
  exact String.toList_inj.1 (encode_injective (String.ofList_inj.1 hliteral))

/-- Hexadecimal digits are among the letters and digits of ASCII. -/
theorem toNat_of_isDigitIn (hdigit : isDigitIn 16 digit = true) :
    48 ≤ digit.toNat ∧ digit.toNat ≤ 70 ∨ 97 ≤ digit.toNat ∧ digit.toNat ≤ 102 := by
  have hcases :
      digit.isDigit = true ∨ ('a' ≤ digit ∧ digit ≤ 'f') ∨ ('A' ≤ digit ∧ digit ≤ 'F') := by
    by_contra hnone
    simp only [not_or] at hnone
    simp [isDigitIn, digitValue?, hnone] at hdigit
  rcases hcases with h | ⟨hlow, hhigh⟩ | ⟨hlow, hhigh⟩
  · have hdigits := Bool.and_eq_true_iff.1 h
    exact .inl ⟨of_decide_eq_true hdigits.1,
      (show digit.toNat ≤ 57 from of_decide_eq_true hdigits.2).trans (by decide)⟩
  · exact .inr ⟨hlow, hhigh⟩
  · exact .inl ⟨(by decide : (48 : Nat) ≤ 65).trans hlow, hhigh⟩

/-- The characters between the quotes that a reader would stop at, or that do not show. -/
def isUnclean (char : Char) : Bool :=
  lineBreaks.contains char || isControl char

theorem isUnclean_of_digit (hdigit : isDigitIn 16 digit = true) :
    isUnclean digit = false ∧ digit ≠ '\'' ∧ digit ≠ '\\' := by
  have hrange := toNat_of_isDigitIn hdigit
  refine ⟨?_, ?_, ?_⟩
  · simp only [isUnclean, isControl, CharSet.contains, lineBreaks, List.any_cons, List.any_nil,
      Bool.or_false, Bool.or_eq_false_iff, Bool.and_eq_false_iff, decide_eq_false_iff_not,
      beq_eq_false_iff_ne]
    omega
  · rintro rfl
    exact absurd hrange (by decide)
  · rintro rfl
    exact absurd hrange (by decide)

theorem isUnclean_of_spelling (hspelled : Spelling char spelled) :
    ∀ other ∈ spelled, isUnclean other = false := by
  cases hspelled with
  | plain _ _ hbreak hcontrol =>
    intro other hother
    rw [List.mem_singleton.1 hother, isUnclean, hbreak, hcontrol]
    rfl
  | escaped hletter hbreak hdigits _ =>
    rw [List.forall_mem_cons, List.forall_mem_cons]
    refine ⟨by decide, by rw [isUnclean, hbreak, hletter]; rfl, fun digit hdigit => ?_⟩
    exact (isUnclean_of_digit (List.all_eq_true.1 hdigits digit hdigit)).1

theorem unescaped_cons (hchar : char ≠ '\\') (rest : List Char) :
    unescaped (char :: rest) = char :: unescaped rest := by
  rw [unescaped]
  rintro _ _ rfl
  exact absurd rfl hchar

theorem unescaped_digits (hdigits : digits.all (isDigitIn 16) = true) (rest : List Char) :
    unescaped (digits ++ rest) = digits ++ unescaped rest := by
  induction digits with
  | nil => rfl
  | cons digit digits ih =>
    rw [List.all_cons, Bool.and_eq_true] at hdigits
    rw [List.cons_append, unescaped_cons (isUnclean_of_digit hdigits.1).2.2, ih hdigits.2,
      List.cons_append]

theorem unescaped_spelling {rest : List Char} (hspelled : Spelling char spelled)
    (hrest : ∀ other ∈ unescaped rest, other ≠ '\'' ∧ other ≠ '\\') :
    ∀ other ∈ unescaped (spelled ++ rest), other ≠ '\'' ∧ other ≠ '\\' := by
  cases hspelled with
  | plain hquote hbackslash _ _ =>
    rw [List.singleton_append, unescaped_cons hbackslash, List.forall_mem_cons]
    exact ⟨⟨hquote, hbackslash⟩, hrest⟩
  | escaped _ _ hdigits _ =>
    rw [List.cons_append, List.cons_append, unescaped, unescaped_digits hdigits]
    intro other hother
    rcases List.mem_append.1 hother with hdigit | hother
    · exact (isUnclean_of_digit (List.all_eq_true.1 hdigits other hdigit)).2
    · exact hrest other hother

theorem unescaped_flatMap (text : List Char) :
    ∀ char ∈ unescaped (text.flatMap encodeChar), char ≠ '\'' ∧ char ≠ '\\' := by
  induction text with
  | nil => exact fun _ h => absurd h List.not_mem_nil
  | cons char text ih =>
    rw [List.flatMap_cons]
    exact unescaped_spelling (spelling_encodeChar char) ih

/-- The argument of a `require` call is printed as the literal of its path. -/
theorem print_requirePath (style : Style) (noIn : Bool) (level : Int) (name : String) :
    ((requirePath (.text name)).print style noIn).expression Precedence.assignment level =
      .ok (.text (literal ("./" ++ name))) :=
  Value.print_of_phrase (show ((requirePath (.text name)).printerIn style noIn).phrase? level =
    some (.ok (.ofText (literal ("./" ++ name)) Precedence.primary)) from rfl) _

theorem encodeChar_of_beyond (hlow : 0x80 ≤ char.toNat) (hhigh : char.toNat ≤ 0x9F) :
    encodeChar char = [char] := by
  have hshort : shortEscape? char = none := by
    unfold shortEscape?
    split <;> first | rfl | exact absurd hlow (by decide)
  rw [encodeChar, hshort]
  simp only
  rw [if_neg (by omega), if_neg (by omega)]

/-- A literal is one complete string in single quotes.  Between them stand no line breaks, no
control characters of ASCII, and no quote or backslash that is not escaped; the control characters
beyond ASCII are left as they are.  Reading it gives back the text and all that stands behind it, so
different names are required by different literals. -/
theorem literal_read_back (text : String) :
    (∃ inside, (literal text).toList = '\'' :: (inside ++ ['\'']) ∧
      (∀ char ∈ inside, lineBreaks.contains char = false ∧ isControl char = false) ∧
      (∀ char ∈ unescaped inside, char ≠ '\'' ∧ char ≠ '\\') ∧
      ∀ front char back, text.toList = front ++ char :: back → 0x80 ≤ char.toNat →
        char.toNat ≤ 0x9F → inside = front.flatMap encodeChar ++ char :: back.flatMap encodeChar) ∧
    (∀ rest, ∃ reading, readLiteral ((literal text).toList ++ rest) = some reading ∧
      reading.rest = rest ∧ unitsText? reading.units = some text.toList) ∧
    ∀ (style : Style) (noIn : Bool) (level : Int) (name other : String), ∃ path otherPath,
      ((requirePath (.text name)).print style noIn).expression Precedence.assignment level =
        .ok (.text path) ∧
      ((requirePath (.text other)).print style noIn).expression Precedence.assignment level =
        .ok (.text otherPath) ∧
      (path = otherPath ↔ name = other) := by
  have hencoded : (literal text).toList = encode text.toList := String.toList_ofList
  refine ⟨⟨text.toList.flatMap encodeChar, hencoded, fun char hchar => ?_,
    unescaped_flatMap text.toList, fun front char back hparts hlow hhigh => ?_⟩, fun rest => ?_,
    fun style noIn level name other => ?_⟩
  · obtain ⟨source, -, hsource⟩ := List.mem_flatMap.1 hchar
    exact Bool.or_eq_false_iff.1 (isUnclean_of_spelling (spelling_encodeChar source) char hsource)
  · rw [hparts, List.flatMap_append, List.flatMap_cons, encodeChar_of_beyond hlow hhigh]
    rfl
  · rw [hencoded, readLiteral_encode]
    exact ⟨_, rfl, rfl, unitsText?_textUnits text.toList⟩
  · refine ⟨_, _, print_requirePath style noIn level name, print_requirePath style noIn level other,
      fun hpaths => ?_, fun hnames => by rw [hnames]⟩
    exact (String.append_right_inj _).1 (literal_injective hpaths)

/-- The control characters of Unicode. -/
def isControlPoint (char : Char) : Bool :=
  isControl char || (0x80 ≤ char.toNat && char.toNat ≤ 0x9F)

/-- A control character beyond ASCII, here the one that ends a line, is left as it is. -/
theorem literal_keeps_next_line :
    (literal "\u0085").toList = '\'' :: (['\u0085'] ++ ['\'']) ∧
      '\u0085' ∈ unescaped ['\u0085'] ∧ isControlPoint '\u0085' = true := by
  decide

end Debundle.StringLiteral
