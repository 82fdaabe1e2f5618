import Mathlib.Order.Nat
import Debundle.Proofs.Script.Derivation

/-!
# Reading expressions

A reader goes through lexemes from left to right and keeps a stack of the constructs that
are still open.  A lexeme behind an operand first closes every construct that binds at
least as tightly as the lexeme asks of what stands on its left.

Whatever the grammar derives, the reader reads; so the grammar derives at most one tree
from a sequence of lexemes.
-/

namespace Debundle

open Operator

/-- A construct that is still open, with the parts of it that have been read. -/
inductive Frame where
  | group
  | array (elements : List (Option Expr))
  | property (owner : Expr)
  | index (owner : Expr)
  | call (callee : Expr) (arguments : List Expr)
  | unary (op : UnaryOp)
  | update (op : UpdateOp)
  | binary (op : BinaryOp) (left : Expr)
  | choice (test : Expr)
  | branch (test consequent : Expr)
  | assign (op : AssignOp) (target : Expr)
  | sequence (items : List Expr)

namespace Frame

/-- The level that is asked of what is read next.  The name of a property is no
expression of any level. -/
def inner : Frame → Nat
  | .group | .index _ => 0
  | .array _ | .call .. | .choice _ | .branch .. | .assign .. | .sequence _ => 1
  | .binary op _ => op.rightLevel
  | .unary _ => 14
  | .update _ => 16
  | .property _ => 18

/-- The level of the whole construct, if it ends with what is read next. -/
def outer? : Frame → Option Nat
  | .sequence _ => some 0
  | .assign .. => some 1
  | .branch .. => some 2
  | .binary op _ => some op.level
  | .unary _ => some 14
  | .update _ => some 15
  | _ => none

/-- The whole construct, if it ends with `last`. -/
def whole? : Frame → Expr → Option Expr
  | .sequence items, last => some (.sequence (items ++ [last]))
  | .assign op target, last => some (.assign op target last)
  | .branch test consequent, last => some (.conditional test consequent last)
  | .binary op left, last => some (.binary op left last)
  | .unary op, last => some (.unary op last)
  | .update op, last => if last.isTarget then some (.update op true last) else none
  | _, _ => none

end Frame

/-- An operand that has been read, its level, and the constructs around it. -/
structure Operand where
  expr : Expr
  level : Nat
  stack : List Frame

/-- Closes the constructs whose level is at least `limit`. -/
def Operand.closeFrames (limit : Nat) : Expr → Nat → List Frame → Option Operand
  | expr, level, [] => some ⟨expr, level, []⟩
  | expr, level, frame :: stack =>
    match frame.outer? with
    | none => some ⟨expr, level, frame :: stack⟩
    | some outer =>
      if outer < limit then some ⟨expr, level, frame :: stack⟩
      else if level < frame.inner then none
      else (frame.whole? expr).bind fun whole => closeFrames limit whole outer stack

def Operand.close (operand : Operand) (limit : Nat) : Option Operand :=
  closeFrames limit operand.expr operand.level operand.stack

/-- A reader waits for an operand, or stands behind one. -/
inductive Reader where
  | waiting (stack : List Frame)
  | behind (operand : Operand)

namespace Reader

/-- The level that a lexeme asks of the operand on its left. -/
def limit : Lexeme → Nat
  | .mark "." | .mark "[" | .mark "(" => 16
  | .mark "?" => 3
  | .mark ":" | .mark "," => 1
  | .mark ")" | .mark "]" => 0
  | lexeme =>
    match (ofLexeme? lexeme : Option BinaryOp) with
    | some op => op.leftLevel
    | none => 16

def startWord (text : String) (stack : List Frame) : Option Reader :=
  if text ∉ reservedWords then some (.behind ⟨.name text, 17, stack⟩)
  else if text ∈ constantWords then some (.behind ⟨.literal text, 17, stack⟩)
  else if text = "this" then some (.behind ⟨.self, 17, stack⟩)
  else (ofLexeme? (.word text)).map fun op => .waiting (.unary op :: stack)

def startMark (text : String) (stack : List Frame) : Option Reader :=
  match text, stack with
  | "(", stack => some (.waiting (.group :: stack))
  | "[", stack => some (.waiting (.array [] :: stack))
  | ")", .call callee arguments :: stack => some (.behind ⟨.call callee arguments, 16, stack⟩)
  | "]", .array elements :: stack => some (.behind ⟨.array elements, 17, stack⟩)
  | ",", .array elements :: stack => some (.waiting (.array (elements ++ [none]) :: stack))
  | text, stack =>
    match (ofLexeme? (.mark text) : Option UpdateOp) with
    | some op => some (.waiting (.update op :: stack))
    | none => (ofLexeme? (.mark text)).map fun op => .waiting (.unary op :: stack)

/-- A lexeme where an operand may start. -/
def start (lexeme : Lexeme) (stack : List Frame) : Option Reader :=
  match lexeme with
  | .literal text => some (.behind ⟨.literal text, 17, stack⟩)
  | .word text => startWord text stack
  | .mark text => startMark text stack

/-- A comma behind an operand ends an element, an argument or an item. -/
def passComma (operand : Operand) : Option Reader :=
  match operand.stack with
  | .array elements :: stack =>
    some (.waiting (.array (elements ++ [some operand.expr]) :: stack))
  | .call callee arguments :: stack =>
    some (.waiting (.call callee (arguments ++ [operand.expr]) :: stack))
  | .sequence items :: stack => some (.waiting (.sequence (items ++ [operand.expr]) :: stack))
  | .choice _ :: _ => none
  | stack => some (.waiting (.sequence [operand.expr] :: stack))

/-- A lexeme behind an operand that is not an operator. -/
def passMark (text : String) (operand : Operand) : Option Reader :=
  match text, operand.stack with
  | ".", stack => some (.waiting (.property operand.expr :: stack))
  | "[", stack => some (.waiting (.index operand.expr :: stack))
  | "(", stack => some (.waiting (.call operand.expr [] :: stack))
  | "?", stack => some (.waiting (.choice operand.expr :: stack))
  | ":", .choice test :: stack => some (.waiting (.branch test operand.expr :: stack))
  | ",", _ => passComma operand
  | ")", .group :: stack => some (.behind ⟨operand.expr, 17, stack⟩)
  | ")", .call callee arguments :: stack =>
    some (.behind ⟨.call callee (arguments ++ [operand.expr]), 16, stack⟩)
  | "]", .index owner :: stack => some (.behind ⟨.index owner operand.expr, 16, stack⟩)
  | "]", .array elements :: stack =>
    some (.behind ⟨.array (elements ++ [some operand.expr]), 17, stack⟩)
  | _, _ => none

/-- An operator behind an operand. -/
def passOperator (lexeme : Lexeme) (operand : Operand) : Option Reader :=
  match (ofLexeme? lexeme : Option BinaryOp) with
  | some op => some (.waiting (.binary op operand.expr :: operand.stack))
  | none =>
    if operand.expr.isTarget then
      match (ofLexeme? lexeme : Option UpdateOp) with
      | some op => some (.behind ⟨.update op false operand.expr, 15, operand.stack⟩)
      | none => (ofLexeme? lexeme).map fun op => .waiting (.assign op operand.expr :: operand.stack)
    else none

def punctuation : List Lexeme :=
  [".", "[", "(", "?", ":", ",", ")", "]"].map .mark

/-- A lexeme behind an operand around which all is closed that the lexeme closes. -/
def pass (lexeme : Lexeme) (operand : Operand) : Option Reader :=
  if operand.level < limit lexeme then none
  else if lexeme ∈ punctuation then passMark lexeme.text operand
  else passOperator lexeme operand

def step : Reader → Lexeme → Option Reader
  | .waiting (.property owner :: stack), .word name =>
    some (.behind ⟨.member owner name, 16, stack⟩)
  | .waiting (.property _ :: _), _ => none
  | .waiting stack, lexeme => start lexeme stack
  | .behind operand, lexeme => (operand.close (limit lexeme)).bind (pass lexeme)

/-- The expression that has been read, if nothing is left open. -/
def finish : Reader → Option Expr
  | .waiting _ => none
  | .behind operand =>
    (operand.close 0).bind fun operand =>
      if operand.stack.isEmpty then some operand.expr else none

def read : Reader → List Lexeme → Option Expr
  | reader, [] => reader.finish
  | reader, lexeme :: rest => (reader.step lexeme).bind fun next => read next rest

/-- The level that the construct on top of the stack asks of what is read next. -/
def demand : List Frame → Nat
  | [] => 0
  | frame :: _ => frame.inner

/-- The level that what follows asks of what stands before it. -/
def follow : List Lexeme → Nat
  | [] => 0
  | lexeme :: _ => limit lexeme

/-- The construct on top of the stack stays open at a limit. -/
def Keeps (limit : Nat) (stack : List Frame) : Prop :=
  ∀ frame ∈ stack.head?, ∀ outer, frame.outer? = some outer → outer < limit

variable {frame : Frame} {outer level : Nat} {operand : Operand} {text : String} {next : Reader}
  {lexemes : List Lexeme} {shape : List (List Lexeme)}

theorem demand_eq_inner {stack : List Frame} (hframe : frame ∈ stack.head?) :
    demand stack = frame.inner := by
  cases stack with
  | nil => cases hframe
  | cons top stack =>
    cases hframe
    rfl

/-- How the level of a construct compares with what it asks of its last part. -/
theorem outer_cases {stack : List Frame} (hframe : frame ∈ stack.head?)
    (houter : frame.outer? = some outer) :
    (outer ≤ 2 ∧ demand stack = 1) ∨ (outer ≤ 15 ∧ demand stack = outer + 1) ∨
      ((outer = 13 ∨ outer = 14) ∧ demand stack = outer) := by
  rw [demand_eq_inner hframe]
  cases frame <;> cases houter
  case binary op left =>
    have hcases := op.level_cases
    simp only [Frame.inner]
    omega
  all_goals simp [Frame.inner]

variable {stack : List Frame} {rest : List Lexeme}

theorem keeps_sixteen (stack : List Frame) : Keeps 16 stack := by
  intro frame hframe outer houter
  have hcases := outer_cases hframe houter
  omega

theorem keeps_leftLevel {op : BinaryOp} (hdemand : demand stack ≤ op.level) :
    Keeps op.leftLevel stack := by
  intro frame hframe outer houter
  have hcases := outer_cases hframe houter
  have hlevels := op.level_cases
  have hbounds := op.level_bounds
  omega

theorem keeps_three (hdemand : demand stack ≤ 2) : Keeps 3 stack := by
  intro frame hframe outer houter
  have hcases := outer_cases hframe houter
  omega

theorem keeps_one (hdemand : demand stack ≤ 0) : Keeps 1 stack := by
  intro frame hframe outer houter
  have hcases := outer_cases hframe houter
  omega

theorem keeps_of_closed (hframe : frame.outer? = none) (limit : Nat) :
    Keeps limit (frame :: stack) := by
  intro top htop outer houter
  cases htop
  rw [hframe] at houter
  cases houter

theorem keeps_sequence (done : List Expr) (stack : List Frame) :
    Keeps 1 (.sequence done :: stack) := by
  intro frame hframe outer houter
  cases hframe
  cases houter
  exact Nat.zero_lt_one

theorem close_of_keeps {limit : Nat} (hkeeps : Keeps limit operand.stack) :
    operand.close limit = some operand := by
  obtain ⟨expr, level, stack⟩ := operand
  cases stack with
  | nil => rfl
  | cons frame stack =>
    simp only [Operand.close, Operand.closeFrames]
    cases houter : frame.outer? with
    | none => rfl
    | some outer => exact if_pos (hkeeps frame rfl outer houter)

/-- A mark behind an operand around which it closes nothing. -/
theorem read_mark (hmark : .mark text ∈ punctuation)
    (hkeeps : Keeps (limit (.mark text)) operand.stack)
    (hlevel : limit (.mark text) ≤ operand.level) (hpass : passMark text operand = some next) :
    read (.behind operand) (.mark text :: rest) = read next rest := by
  rw [read, step, close_of_keeps hkeeps, Option.bind_some, pass, if_neg (Nat.not_lt.2 hlevel)]
  rw [if_pos hmark, Lexeme.text, hpass, Option.bind_some]

theorem read_comma (hkeeps : Keeps 1 operand.stack) (hlevel : 1 ≤ operand.level)
    (hpass : passComma operand = some next) :
    read (.behind operand) (.comma :: rest) = read next rest :=
  read_mark (by decide) hkeeps hlevel hpass

/-- An operator behind an operand around which it closes nothing. -/
theorem read_operator {lexeme : Lexeme} (hmark : lexeme ∉ punctuation)
    (hkeeps : Keeps (limit lexeme) operand.stack) (hlevel : limit lexeme ≤ operand.level)
    (hpass : passOperator lexeme operand = some next) :
    read (.behind operand) (lexeme :: rest) = read next rest := by
  rw [read, step, close_of_keeps hkeeps, Option.bind_some, pass, if_neg (Nat.not_lt.2 hlevel)]
  rw [if_neg hmark, hpass, Option.bind_some]

/-- Where what follows asks for no more, the construct on top may be closed at once. -/
theorem read_close {expr whole : Expr} (houter : frame.outer? = some outer)
    (hwhole : frame.whole? expr = some whole) (hlevel : frame.inner ≤ level)
    (hfollow : follow rest ≤ outer) :
    read (.behind ⟨expr, level, frame :: stack⟩) rest =
      read (.behind ⟨whole, outer, stack⟩) rest := by
  have hclose : ∀ limit ≤ outer, Operand.close ⟨expr, level, frame :: stack⟩ limit =
      Operand.close ⟨whole, outer, stack⟩ limit := by
    intro limit hlimit
    simp only [Operand.close, Operand.closeFrames, houter, hwhole, Option.bind_some]
    rw [if_neg (Nat.not_lt.2 hlimit), if_neg (Nat.not_lt.2 hlevel)]
  cases rest with
  | nil => rw [read, read, finish, finish, hclose 0 (Nat.zero_le _)]
  | cons lexeme rest => rw [read, read, step, step, hclose (limit lexeme) hfollow]

/-- Only the name of a property is read in another way than an operand. -/
theorem step_waiting (hdemand : demand stack ≤ 17) (lexeme : Lexeme) :
    step (.waiting stack) lexeme = start lexeme stack := by
  cases stack with
  | nil => rfl
  | cons frame stack =>
    cases frame
    case property owner => simp [demand, Frame.inner] at hdemand
    all_goals rfl

theorem start_constant (hconstant : text ∈ constantWords) (stack : List Frame) :
    start (.word text) stack = some (.behind ⟨.literal text, 17, stack⟩) := by
  have hreserved : ∀ word ∈ constantWords, word ∈ reservedWords := by decide
  rw [start, startWord, if_neg (not_not_intro (hreserved text hconstant)), if_pos hconstant]

/-- Where commas may stand, the first one opens a sequence. -/
theorem passComma_of_demand (hdemand : demand stack ≤ 0) (expr : Expr) (level : Nat) :
    passComma ⟨expr, level, stack⟩ = some (.waiting (.sequence [expr] :: stack)) := by
  cases stack with
  | nil => rfl
  | cons frame stack =>
    cases frame
    case group => rfl
    case index owner => rfl
    case binary op left =>
      have hlevels := op.level_cases
      simp only [demand, Frame.inner] at hdemand
      omega
    all_goals simp [demand, Frame.inner] at hdemand

/-- No lexeme asks for a conditional on its left, since one would end inside it. -/
theorem follow_ne_two (rest : List Lexeme) : follow rest ≠ 2 := by
  cases rest with
  | nil => decide
  | cons lexeme rest =>
    rw [follow, limit.eq_def]
    split <;> try decide
    split
    · rename_i op _
      have hlevels := op.level_cases
      have hbounds := op.level_bounds
      omega
    · decide

/-- The lexemes are read as an operand, whatever stands before and behind them. -/
def ReadsAs (level : Nat) (lexemes : List Lexeme) (expr : Expr) : Prop :=
  ∀ stack rest, demand stack ≤ level → follow rest ≤ level →
    ∃ own, level ≤ own ∧
      read (.waiting stack) (lexemes ++ rest) = read (.behind ⟨expr, own, stack⟩) rest

namespace ReadsAs

variable {expr : Expr} {lexemes : List Lexeme}

theorem lower {low high : Nat} (hle : low ≤ high) (hreads : ReadsAs high lexemes expr) :
    ReadsAs low lexemes expr := by
  intro stack rest hdemand hfollow
  obtain ⟨own, hown, hread⟩ := hreads stack rest (hdemand.trans hle) (hfollow.trans hle)
  exact ⟨own, hle.trans hown, hread⟩

/-- An operand of one lexeme. -/
theorem single {lexeme : Lexeme}
    (hstart : ∀ stack, start lexeme stack = some (.behind ⟨expr, 17, stack⟩)) :
    ReadsAs 17 [lexeme] expr := by
  intro stack rest hdemand _
  refine ⟨17, le_rfl, ?_⟩
  rw [List.singleton_append, read, step_waiting hdemand, hstart, Option.bind_some]

theorem group (hreads : ReadsAs 0 lexemes expr) :
    ReadsAs 17 (.mark "(" :: lexemes ++ [.mark ")"]) expr := by
  intro stack rest hdemand _
  obtain ⟨own, -, hread⟩ :=
    hreads (.group :: stack) (.mark ")" :: rest) (Nat.zero_le _) (Nat.zero_le _)
  refine ⟨17, le_rfl, ?_⟩
  calc read (.waiting stack) (.mark "(" :: lexemes ++ [.mark ")"] ++ rest)
      = read (.waiting (.group :: stack)) (lexemes ++ .mark ")" :: rest) := by
        rw [List.cons_append, List.cons_append, read, step_waiting hdemand]
        simp [start, startMark]
    _ = read (.behind ⟨expr, own, .group :: stack⟩) (.mark ")" :: rest) := hread
    _ = read (.behind ⟨expr, 17, stack⟩) rest :=
        read_mark (by decide) (keeps_of_closed rfl _) (Nat.zero_le _) rfl

theorem unary {op : UnaryOp} (hreads : ReadsAs 14 lexemes expr) :
    ReadsAs 14 (lexeme op :: lexemes) (.unary op expr) := by
  intro stack rest hdemand hfollow
  obtain ⟨own, hown, hread⟩ := hreads (.unary op :: stack) rest le_rfl hfollow
  refine ⟨14, le_rfl, ?_⟩
  calc read (.waiting stack) (lexeme op :: lexemes ++ rest)
      = read (.waiting (.unary op :: stack)) (lexemes ++ rest) := by
        rw [List.cons_append, read, step_waiting (hdemand.trans (by decide))]
        cases op <;> rfl
    _ = read (.behind ⟨expr, own, .unary op :: stack⟩) rest := hread
    _ = read (.behind ⟨.unary op expr, 14, stack⟩) rest := read_close rfl rfl hown hfollow

theorem updateFront {op : UpdateOp} (hreads : ReadsAs 16 lexemes expr)
    (htarget : expr.isTarget = true) :
    ReadsAs 15 (lexeme op :: lexemes) (.update op true expr) := by
  intro stack rest hdemand hfollow
  obtain ⟨own, hown, hread⟩ := hreads (.update op :: stack) rest le_rfl (hfollow.trans (by decide))
  refine ⟨15, le_rfl, ?_⟩
  calc read (.waiting stack) (lexeme op :: lexemes ++ rest)
      = read (.waiting (.update op :: stack)) (lexemes ++ rest) := by
        rw [List.cons_append, read, step_waiting (hdemand.trans (by decide))]
        cases op <;> rfl
    _ = read (.behind ⟨expr, own, .update op :: stack⟩) rest := hread
    _ = read (.behind ⟨.update op true expr, 15, stack⟩) rest :=
        read_close rfl (if_pos htarget) hown hfollow

theorem updateAfter {op : UpdateOp} (hreads : ReadsAs 16 lexemes expr)
    (htarget : expr.isTarget = true) :
    ReadsAs 15 (lexemes ++ [lexeme op]) (.update op false expr) := by
  intro stack rest hdemand _
  have hlimit : limit (lexeme op) = 16 := by cases op <;> rfl
  obtain ⟨own, hown, hread⟩ :=
    hreads stack (lexeme op :: rest) (hdemand.trans (by decide)) hlimit.le
  refine ⟨15, le_rfl, ?_⟩
  calc read (.waiting stack) (lexemes ++ [lexeme op] ++ rest)
      = read (.waiting stack) (lexemes ++ lexeme op :: rest) := by
        rw [List.append_assoc, List.singleton_append]
    _ = read (.behind ⟨expr, own, stack⟩) (lexeme op :: rest) := hread
    _ = read (.behind ⟨.update op false expr, 15, stack⟩) rest := by
        apply read_operator
        · cases op <;> decide
        · exact hlimit ▸ keeps_sixteen stack
        · exact hlimit ▸ hown
        · cases op <;> simp only [passOperator, htarget, if_true] <;> rfl

theorem binary {op : BinaryOp} {front back : List Lexeme} {left right : Expr}
    (hleft : ReadsAs op.leftLevel front left) (hright : ReadsAs op.rightLevel back right) :
    ReadsAs op.level (front ++ lexeme op :: back) (.binary op left right) := by
  intro stack rest hdemand hfollow
  have hlimit : limit (lexeme op) = op.leftLevel := by cases op <;> rfl
  have hlevels := op.level_cases
  obtain ⟨own, hown, hread⟩ := hleft stack (lexeme op :: (back ++ rest)) (by omega) hlimit.le
  obtain ⟨last, hlast, hback⟩ := hright (.binary op left :: stack) rest le_rfl (by omega)
  refine ⟨op.level, le_rfl, ?_⟩
  calc read (.waiting stack) (front ++ lexeme op :: back ++ rest)
      = read (.waiting stack) (front ++ lexeme op :: (back ++ rest)) := by
        rw [List.append_assoc, List.cons_append]
    _ = read (.behind ⟨left, own, stack⟩) (lexeme op :: (back ++ rest)) := hread
    _ = read (.waiting (.binary op left :: stack)) (back ++ rest) := by
        apply read_operator
        · cases op <;> decide
        · exact hlimit ▸ keeps_leftLevel hdemand
        · exact hlimit ▸ hown
        · simp only [passOperator, ofLexeme?_lexeme]
    _ = read (.behind ⟨right, last, .binary op left :: stack⟩) rest := hback
    _ = read (.behind ⟨.binary op left right, op.level, stack⟩) rest :=
        read_close rfl rfl hlast hfollow

theorem conditional {first second third : List Lexeme} {test consequent alternate : Expr}
    (htest : ReadsAs 3 first test) (hconsequent : ReadsAs 1 second consequent)
    (halternate : ReadsAs 1 third alternate) :
    ReadsAs 2 (first ++ .mark "?" :: second ++ .mark ":" :: third)
      (.conditional test consequent alternate) := by
  intro stack rest hdemand hfollow
  have hthird : follow rest ≤ 1 := by
    have hne := follow_ne_two rest
    omega
  obtain ⟨own, hown, hfirst⟩ := htest stack
    (.mark "?" :: (second ++ .mark ":" :: (third ++ rest))) (hdemand.trans (by decide)) le_rfl
  obtain ⟨middle, hmiddle, hsecond⟩ := hconsequent (.choice test :: stack)
    (.mark ":" :: (third ++ rest)) le_rfl le_rfl
  obtain ⟨last, hlast, hlastRead⟩ :=
    halternate (.branch test consequent :: stack) rest le_rfl hthird
  refine ⟨2, le_rfl, ?_⟩
  calc read (.waiting stack) (first ++ .mark "?" :: second ++ .mark ":" :: third ++ rest)
      = read (.waiting stack)
          (first ++ .mark "?" :: (second ++ .mark ":" :: (third ++ rest))) := by simp
    _ = read (.behind ⟨test, own, stack⟩)
          (.mark "?" :: (second ++ .mark ":" :: (third ++ rest))) := hfirst
    _ = read (.waiting (.choice test :: stack)) (second ++ .mark ":" :: (third ++ rest)) :=
        read_mark (by decide) (keeps_three hdemand) hown rfl
    _ = read (.behind ⟨consequent, middle, .choice test :: stack⟩)
          (.mark ":" :: (third ++ rest)) := hsecond
    _ = read (.waiting (.branch test consequent :: stack)) (third ++ rest) :=
        read_mark (by decide) (keeps_of_closed rfl _) hmiddle rfl
    _ = read (.behind ⟨alternate, last, .branch test consequent :: stack⟩) rest := hlastRead
    _ = read (.behind ⟨.conditional test consequent alternate, 2, stack⟩) rest :=
        read_close rfl rfl hlast hfollow

theorem assign {op : AssignOp} {front back : List Lexeme} {target value : Expr}
    (hfront : ReadsAs 16 front target) (htarget : target.isTarget = true)
    (hback : ReadsAs 1 back value) :
    ReadsAs 1 (front ++ lexeme op :: back) (.assign op target value) := by
  intro stack rest hdemand hfollow
  have hlimit : limit (lexeme op) = 16 := by cases op <;> rfl
  obtain ⟨own, hown, hread⟩ :=
    hfront stack (lexeme op :: (back ++ rest)) (hdemand.trans (by decide)) hlimit.le
  obtain ⟨last, hlast, hvalue⟩ := hback (.assign op target :: stack) rest le_rfl hfollow
  refine ⟨1, le_rfl, ?_⟩
  calc read (.waiting stack) (front ++ lexeme op :: back ++ rest)
      = read (.waiting stack) (front ++ lexeme op :: (back ++ rest)) := by
        rw [List.append_assoc, List.cons_append]
    _ = read (.behind ⟨target, own, stack⟩) (lexeme op :: (back ++ rest)) := hread
    _ = read (.waiting (.assign op target :: stack)) (back ++ rest) := by
        apply read_operator
        · cases op <;> decide
        · exact hlimit ▸ keeps_sixteen stack
        · exact hlimit ▸ hown
        · cases op <;> simp only [passOperator, htarget, if_true] <;> rfl
    _ = read (.behind ⟨value, last, .assign op target :: stack⟩) rest := hvalue
    _ = read (.behind ⟨.assign op target value, 1, stack⟩) rest :=
        read_close rfl rfl hlast hfollow

theorem member {owner : Expr} {name : String} (howner : ReadsAs 16 lexemes owner) :
    ReadsAs 16 (lexemes ++ [.mark ".", .word name]) (.member owner name) := by
  intro stack rest hdemand _
  obtain ⟨own, hown, hread⟩ := howner stack (.mark "." :: .word name :: rest) hdemand le_rfl
  refine ⟨16, le_rfl, ?_⟩
  calc read (.waiting stack) (lexemes ++ [.mark ".", .word name] ++ rest)
      = read (.waiting stack) (lexemes ++ .mark "." :: .word name :: rest) := by simp
    _ = read (.behind ⟨owner, own, stack⟩) (.mark "." :: .word name :: rest) := hread
    _ = read (.waiting (.property owner :: stack)) (.word name :: rest) :=
        read_mark (by decide) (keeps_sixteen stack) hown rfl
    _ = read (.behind ⟨.member owner name, 16, stack⟩) rest := rfl

theorem index {front inner : List Lexeme} {owner place : Expr}
    (howner : ReadsAs 16 front owner) (hplace : ReadsAs 0 inner place) :
    ReadsAs 16 (front ++ .mark "[" :: inner ++ [.mark "]"]) (.index owner place) := by
  intro stack rest hdemand _
  obtain ⟨own, hown, hread⟩ :=
    howner stack (.mark "[" :: (inner ++ .mark "]" :: rest)) hdemand le_rfl
  obtain ⟨last, -, hinner⟩ :=
    hplace (.index owner :: stack) (.mark "]" :: rest) (Nat.zero_le _) (Nat.zero_le _)
  refine ⟨16, le_rfl, ?_⟩
  calc read (.waiting stack) (front ++ .mark "[" :: inner ++ [.mark "]"] ++ rest)
      = read (.waiting stack) (front ++ .mark "[" :: (inner ++ .mark "]" :: rest)) := by simp
    _ = read (.behind ⟨owner, own, stack⟩) (.mark "[" :: (inner ++ .mark "]" :: rest)) := hread
    _ = read (.waiting (.index owner :: stack)) (inner ++ .mark "]" :: rest) :=
        read_mark (by decide) (keeps_sixteen stack) hown rfl
    _ = read (.behind ⟨place, last, .index owner :: stack⟩) (.mark "]" :: rest) := hinner
    _ = read (.behind ⟨.index owner place, 16, stack⟩) rest :=
        read_mark (by decide) (keeps_of_closed rfl _) (Nat.zero_le _) rfl

end ReadsAs

/-- The elements of an array, behind those that have been read. -/
theorem read_elements {shape : List (Option (List Lexeme))} (hshape : Elements shape lexemes) :
    ∀ {elements : List (Option (List Lexeme × Expr))},
      elements.map (Option.map Prod.fst) = shape →
      (∀ element, some element ∈ elements → ReadsAs 1 element.1 element.2) →
      ∀ done, read (.waiting (.array done :: stack)) (lexemes ++ .mark "]" :: rest) =
        read (.behind ⟨.array (done ++ elements.map (Option.map Prod.snd)), 17, stack⟩) rest := by
  induction hshape with
  | none =>
    intro elements hmap _ done
    rw [List.map_eq_nil_iff.1 hmap, List.map_nil, List.append_nil]
    rfl
  | last item =>
    intro elements hmap hitems done
    obtain ⟨element, after, rfl, helement, hafter⟩ := List.map_eq_cons_iff.1 hmap
    obtain ⟨element, rfl, rfl⟩ := Option.map_eq_some_iff.1 helement
    obtain rfl := List.map_eq_nil_iff.1 hafter
    obtain ⟨own, hown, hread⟩ := hitems element (by simp) (.array done :: stack)
      (.mark "]" :: rest) le_rfl (Nat.zero_le _)
    rw [hread]
    exact read_mark (by decide) (keeps_of_closed rfl _) (Nat.zero_le _) rfl
  | item item hrest ih =>
    intro elements hmap hitems done
    obtain ⟨element, after, rfl, helement, hafter⟩ := List.map_eq_cons_iff.1 hmap
    obtain ⟨element, rfl, rfl⟩ := Option.map_eq_some_iff.1 helement
    obtain ⟨own, hown, hread⟩ := hitems element (by simp) (.array done :: stack)
      (.comma :: (_ ++ .mark "]" :: rest)) le_rfl le_rfl
    rw [List.append_assoc, List.cons_append, hread]
    rw [read_comma (keeps_of_closed rfl _) hown rfl]
    rw [ih hafter (fun other hmem => hitems other (List.mem_cons_of_mem _ hmem))]
    simp
  | hole hrest ih =>
    intro elements hmap hitems done
    obtain ⟨element, after, rfl, helement, hafter⟩ := List.map_eq_cons_iff.1 hmap
    obtain rfl := Option.map_eq_none_iff.1 helement
    have hnext := ih hafter (fun other hmem => hitems other (List.mem_cons_of_mem _ hmem))
      (done ++ [none])
    rw [List.append_assoc] at hnext
    exact hnext

/-- Items with commas between them, inside a construct that collects them. -/
theorem read_separated (frame : List Expr → Frame) (hinner : ∀ done, (frame done).inner = 1)
    (hkeeps : ∀ done stack, Keeps 1 (frame done :: stack))
    (hcomma : ∀ done expr own stack, passComma ⟨expr, own, frame done :: stack⟩ =
      some (.waiting (frame (done ++ [expr]) :: stack))) (hshape : Separated shape lexemes)
    (hfollow : follow rest ≤ 1) :
    ∀ {items : List (List Lexeme × Expr)}, items.map Prod.fst = shape →
      (∀ item ∈ items, ReadsAs 1 item.1 item.2) →
      ∀ done, ∃ init last own, 1 ≤ own ∧ done ++ items.map Prod.snd = init ++ [last] ∧
        read (.waiting (frame done :: stack)) (lexemes ++ rest) =
          read (.behind ⟨last, own, frame init :: stack⟩) rest := by
  induction hshape with
  | last item =>
    intro items hmap hitems done
    obtain ⟨item, after, rfl, rfl, hafter⟩ := List.map_eq_cons_iff.1 hmap
    obtain rfl := List.map_eq_nil_iff.1 hafter
    obtain ⟨own, hown, hread⟩ :=
      hitems item (by simp) (frame done :: stack) rest (hinner done).le hfollow
    exact ⟨done, item.2, own, hown, rfl, hread⟩
  | item item hrest ih =>
    intro items hmap hitems done
    obtain ⟨item, after, rfl, rfl, hafter⟩ := List.map_eq_cons_iff.1 hmap
    obtain ⟨own, hown, hread⟩ := hitems item (by simp) (frame done :: stack)
      (.comma :: (_ ++ rest)) (hinner done).le le_rfl
    obtain ⟨init, last, own', hown', heq, hnext⟩ := ih hafter
      (fun other hmem => hitems other (List.mem_cons_of_mem _ hmem)) (done ++ [item.2])
    refine ⟨init, last, own', hown', by simpa using heq, ?_⟩
    rw [List.append_assoc, List.cons_append, hread,
      read_comma (hkeeps _ _) hown (hcomma _ _ _ _), hnext]

/-- The arguments of a call, with the parenthesis that closes it. -/
theorem read_arguments (hshape : ArgumentList shape lexemes) {callee : Expr}
    {items : List (List Lexeme × Expr)} (hmap : items.map Prod.fst = shape)
    (hitems : ∀ item ∈ items, ReadsAs 1 item.1 item.2) :
    read (.waiting (.call callee [] :: stack)) (lexemes ++ .mark ")" :: rest) =
      read (.behind ⟨.call callee (items.map Prod.snd), 16, stack⟩) rest := by
  have hseparated : ∀ lexemes rest, Separated shape lexemes → follow rest ≤ 1 →
      ∃ init last own, 1 ≤ own ∧ items.map Prod.snd = init ++ [last] ∧
        read (.waiting (.call callee [] :: stack)) (lexemes ++ rest) =
          read (.behind ⟨last, own, .call callee init :: stack⟩) rest :=
    fun _ _ hshape hfollow => read_separated (.call callee) (fun _ => rfl)
      (fun _ _ => keeps_of_closed rfl _) (fun _ _ _ _ => rfl) hshape hfollow hmap hitems []
  cases hshape with
  | none =>
    rw [List.map_eq_nil_iff.1 hmap]
    rfl
  | some hitemsShape =>
    obtain ⟨init, last, own, -, heq, hread⟩ :=
      hseparated _ (.mark ")" :: rest) hitemsShape (Nat.zero_le _)
    rw [hread, heq]
    exact read_mark (by decide) (keeps_of_closed rfl _) (Nat.zero_le _) rfl
  | someComma hitemsShape =>
    obtain ⟨init, last, own, hown, heq, hread⟩ :=
      hseparated _ (.comma :: .mark ")" :: rest) hitemsShape le_rfl
    rw [List.append_assoc, List.singleton_append, hread, heq,
      read_comma (keeps_of_closed rfl _) hown rfl]
    rfl

namespace ReadsAs

theorem array {elements : List (Option (List Lexeme × Expr))} {lexemes : List Lexeme}
    (hitems : ∀ element, some element ∈ elements → ReadsAs 1 element.1 element.2)
    (helements : Elements (elements.map (Option.map Prod.fst)) lexemes) :
    ReadsAs 17 (.mark "[" :: lexemes ++ [.mark "]"])
      (.array (elements.map (Option.map Prod.snd))) := by
  intro stack rest hdemand _
  refine ⟨17, le_rfl, ?_⟩
  calc read (.waiting stack) (.mark "[" :: lexemes ++ [.mark "]"] ++ rest)
      = read (.waiting (.array [] :: stack)) (lexemes ++ .mark "]" :: rest) := by
        rw [List.cons_append, List.cons_append, read, step_waiting hdemand]
        simp [start, startMark]
    _ = read (.behind ⟨.array (elements.map (Option.map Prod.snd)), 17, stack⟩) rest :=
        read_elements helements rfl hitems []

theorem call {front inner : List Lexeme} {callee : Expr} {items : List (List Lexeme × Expr)}
    (hcallee : ReadsAs 16 front callee) (hitems : ∀ item ∈ items, ReadsAs 1 item.1 item.2)
    (harguments : ArgumentList (items.map Prod.fst) inner) :
    ReadsAs 16 (front ++ .mark "(" :: inner ++ [.mark ")"])
      (.call callee (items.map Prod.snd)) := by
  intro stack rest hdemand _
  obtain ⟨own, hown, hread⟩ :=
    hcallee stack (.mark "(" :: (inner ++ .mark ")" :: rest)) hdemand le_rfl
  refine ⟨16, le_rfl, ?_⟩
  calc read (.waiting stack) (front ++ .mark "(" :: inner ++ [.mark ")"] ++ rest)
      = read (.waiting stack) (front ++ .mark "(" :: (inner ++ .mark ")" :: rest)) := by simp
    _ = read (.behind ⟨callee, own, stack⟩) (.mark "(" :: (inner ++ .mark ")" :: rest)) := hread
    _ = read (.waiting (.call callee [] :: stack)) (inner ++ .mark ")" :: rest) :=
        read_mark (by decide) (keeps_sixteen stack) hown rfl
    _ = read (.behind ⟨.call callee (items.map Prod.snd), 16, stack⟩) rest :=
        read_arguments harguments rfl hitems

theorem sequence {items : List (List Lexeme × Expr)} {lexemes : List Lexeme}
    (hlength : 2 ≤ items.length) (hitems : ∀ item ∈ items, ReadsAs 1 item.1 item.2)
    (hseparated : Separated (items.map Prod.fst) lexemes) :
    ReadsAs 0 lexemes (.sequence (items.map Prod.snd)) := by
  intro stack rest hdemand hfollow
  generalize hmap : items.map Prod.fst = shape at hseparated
  cases hseparated with
  | last item =>
    have hone := congrArg List.length hmap
    simp only [List.length_map, List.length_singleton] at hone
    omega
  | @item item others lexemes hothers =>
    obtain ⟨first, after, rfl, rfl, hafter⟩ := List.map_eq_cons_iff.1 hmap
    obtain ⟨own, hown, hread⟩ := hitems first (by simp) stack
      (.comma :: (lexemes ++ rest)) (hdemand.trans (by decide)) le_rfl
    obtain ⟨init, last, own', hown', heq, hnext⟩ :=
      read_separated .sequence (fun _ => rfl) keeps_sequence (fun _ _ _ _ => rfl)
        hothers (hfollow.trans (by decide)) hafter
        (fun item hmem => hitems item (List.mem_cons_of_mem _ hmem)) [first.2]
    refine ⟨0, le_rfl, ?_⟩
    calc read (.waiting stack) (first.1 ++ .comma :: lexemes ++ rest)
        = read (.waiting stack) (first.1 ++ .comma :: (lexemes ++ rest)) := by simp
      _ = read (.behind ⟨first.2, own, stack⟩) (.comma :: (lexemes ++ rest)) := hread
      _ = read (.waiting (.sequence [first.2] :: stack)) (lexemes ++ rest) :=
          read_comma (keeps_one hdemand) hown (passComma_of_demand hdemand _ _)
      _ = read (.behind ⟨last, own', .sequence init :: stack⟩) rest := hnext
      _ = read (.behind ⟨.sequence (init ++ [last]), 0, stack⟩) rest :=
          read_close rfl rfl hown' hfollow
      _ = read (.behind ⟨.sequence ((first :: after).map Prod.snd), 0, stack⟩) rest := by
          rw [← heq, List.map_cons, List.singleton_append]

end ReadsAs

/-- What the grammar derives, the reader reads in every place where it may stand. -/
theorem readsAs_of_derives {expr : Expr} (hderives : Derives level lexemes expr) :
    ReadsAs level lexemes expr := by
  induction hderives with
  | lower hle _ ih => exact ih.lower hle
  | name hname => exact .single fun stack => if_pos hname
  | self => exact .single fun stack => rfl
  | constant hconstant => exact .single (start_constant hconstant)
  | literal => exact .single fun stack => rfl
  | group _ ih => exact ih.group
  | array _ helements ih => exact .array ih helements
  | member _ ih => exact ih.member
  | index _ _ howner hplace => exact howner.index hplace
  | call _ _ harguments hcallee hitems => exact hcallee.call hitems harguments
  | updateAfter _ htarget ih => exact ih.updateAfter htarget
  | updateFront _ htarget ih => exact ih.updateFront htarget
  | unary _ ih => exact ih.unary
  | binary _ _ hleft hright => exact hleft.binary hright
  | conditional _ _ _ htest hconsequent halternate => exact htest.conditional hconsequent halternate
  | assign _ htarget _ hfront hback => exact hfront.assign htarget hback
  | sequence hlength _ hseparated ih => exact .sequence hlength ih hseparated

end Reader

/-- The expression that a whole sequence of lexemes is read as. -/
def readExpression (lexemes : List Lexeme) : Option Expr :=
  Reader.read (.waiting []) lexemes

variable {level : Nat} {lexemes : List Lexeme}

theorem readExpression_of_derives {expr : Expr} (hderives : Derives level lexemes expr) :
    readExpression lexemes = some expr := by
  obtain ⟨own, -, hread⟩ := Reader.readsAs_of_derives hderives [] [] (Nat.zero_le _) (Nat.zero_le _)
  rw [List.append_nil] at hread
  exact hread

/-- The grammar is unambiguous. -/
theorem Derives.unique {level' : Nat} {expr other : Expr} (hderives : Derives level lexemes expr)
    (hother : Derives level' lexemes other) : other = expr := by
  have hread := readExpression_of_derives hderives
  rw [readExpression_of_derives hother] at hread
  exact Option.some.inj hread

end Debundle
