import Debundle.Proofs.Script.NewCallee
import Debundle.Proofs.Script.RoundTrip
import Debundle.Proofs.Script.Template

/-!
# What chains are printed as

The text of a chain falls into the lexemes that `Callee.lexemes` says, wherever the chain is
printed.  Arguments, the places in brackets, the expressions in templates and what has to stand
in parentheses may be any expressions whose text falls into closed sequences of lexemes.  All
operator expressions are such: `Depicts.exists_spells`, `Depicts.exists_spellsLoosely`.
-/

namespace Debundle

open Lexer

/-- Kinds of nodes that bind as tightly as a call. -/
def tightKinds : List Kind :=
  [.literal, .memberExpression, .callExpression, .taggedTemplateExpression]

namespace Callee

/-- A tree is made of the nodes of a chain. -/
inductive Depicts (style : Style) (noIn : Bool) : Callee → Value → Prop where
  | name {node : Value} {text : String} :
      node.kind = .identifier → node.lookup "name" = some (.text text) → isWord text = true →
      text ∉ reservedWords → Depicts style noIn (.name text) node
  | self {node : Value} : node.kind = .thisExpression → Depicts style noIn (.name "this") node
  | other {node : Value} {inner : List Lexeme} :
      node.kind ∉ tightKinds → node.SpellsLoosely style noIn inner → Closed [] inner →
      ¬ IsChain inner → Depicts style noIn (.other inner) node
  | member {node object property : Value} {owner : Callee} {name : String} :
      node.kind = .memberExpression → node.flag "computed" = false →
      node.lookup "object" = some object → node.lookup "property" = some property →
      Depicts style noIn owner object → property.lookup "name" = some (.text name) →
      isWord name = true → Depicts style noIn (.select owner (.member name)) node
  | index {node object property : Value} {owner : Callee} {place : List Lexeme} :
      node.kind = .memberExpression → node.flag "computed" = true →
      node.lookup "object" = some object → node.lookup "property" = some property →
      Depicts style noIn owner object →
      property.Spells style noIn Precedence.sequence place → Closed [] place →
      Depicts style noIn (.select owner (.index place)) node
  | tagged {node tag template quasi : Value} {owner : Callee} {raw : String}
      {parts : List Interpolation} :
      node.kind = .taggedTemplateExpression → node.lookup "tag" = some tag →
      node.lookup "quasi" = some template → Depicts style noIn owner tag →
      DepictsTemplate style noIn template quasi raw parts →
      Depicts style noIn (.select owner (.template (templateLexemes '\x60' raw.toList
        (parts.map fun part => (part.lexemes, part.raw.toList))))) node
  | call {node function : Value} {callee : Callee} {items : List (List Lexeme × Value)} :
      node.kind = .callExpression → node.lookup "callee" = some function →
      node.lookup "arguments" = some (.array (items.map Prod.snd)) →
      Depicts style noIn callee function →
      (∀ item ∈ items, item.2.Spells style noIn Precedence.assignment item.1) →
      (∀ item ∈ items, IsArgument item.1) →
      Depicts style noIn (.call callee (items.map Prod.fst)) node
  | construct {node function : Value} {callee : Callee} {items : List (List Lexeme × Value)} :
      node.kind = .newExpression → node.lookup "callee" = some function →
      node.lookup "arguments" = some (.array (items.map Prod.snd)) →
      Depicts style noIn callee function →
      (∀ item ∈ items, item.2.Spells style noIn Precedence.assignment item.1) →
      (∀ item ∈ items, IsArgument item.1) →
      Depicts style noIn (.construct callee (items.map Prod.fst)) node

end Callee

/-! ### Texts of chains -/

theorem Printer.phrase?_new {node : Value} {printer : Printer node} {level : Int}
    {callee arguments : String} {part : Part node} (hkind : node.kind = .newExpression)
    (hpart : node.require "callee" = .ok part)
    (hcallee : printer.newCallee part level = .ok callee)
    (harguments : printer.arguments level = .ok arguments) :
    printer.phrase? level =
      some (.ok (.ofText ("new " ++ callee ++ arguments) Precedence.new)) := by
  rw [Printer.phrase?_of_kind hkind rfl]
  simp only [Printer.newCall, Attempt.ok_bind, hpart, hcallee, harguments]
  rfl

namespace Callee

variable {style : Style} {noIn : Bool} {callee : Callee} {node : Value} {level : Int}

/-- What a chain is printed as where a call or something to construct is asked for. -/
structure Printed (style : Style) (noIn : Bool) (callee : Callee) (node : Value) (level : Int)
    (text : String) : Prop where
  call_eq : (node.print style noIn).expression Precedence.call level = .ok (.text text)
  new_eq : (node.print style noIn).expression Precedence.new level =
    .ok (.text (if callee.isLoose then parenthesized text else text))
  starts : ∃ char rest, text.toList = char :: rest ∧ (char == '(') = callee.opensGroup
  scans : Scans .script .operand text.toList callee.lexemes .operator isWordEnd

theorem Printed.of_phrase {text : String} {strength : Nat}
    (hphrase : (node.printerIn style noIn).phrase? level = some (.ok (.ofText text strength)))
    (hcall : Precedence.call ≤ strength)
    (hnew : callee.isLoose = decide (strength < Precedence.new))
    (hstarts : ∃ char rest, text.toList = char :: rest ∧ (char == '(') = callee.opensGroup)
    (hscans : Scans .script .operand text.toList callee.lexemes .operator isWordEnd) :
    callee.Printed style noIn node level text where
  call_eq := by rw [Value.print_of_phrase hphrase, if_neg (Nat.not_lt_of_le hcall)]
  new_eq := by
    rw [Value.print_of_phrase hphrase, hnew]
    simp only [decide_eq_true_eq]
  starts := hstarts
  scans := hscans

/-- A tree is printed as the chain that it depicts. -/
structure Shown (style : Style) (noIn : Bool) (callee : Callee) (node : Value) : Prop where
  containsCall_eq : node.containsCall = callee.containsCall
  isNumeric_eq : node.isNumeric = false
  printed : ∀ level, ∃ text, callee.Printed style noIn node level text

theorem isNumeric_of_kind (hkind : node.kind ≠ .literal) : node.isNumeric = false := by
  rw [Value.isNumeric, beq_eq_false_iff_ne.2 hkind, Bool.false_and]

namespace Shown

variable {object : Value} {owner : Callee}

theorem word {text : String}
    (hphrase : ∀ level, (node.printerIn style noIn).phrase? level =
      some (.ok (.ofText text Precedence.primary)))
    (hcall : node.containsCall = false) (hkind : node.kind ≠ .literal)
    (hword : isWord text = true)
    (hscans : Scans .script .operand text.toList [.word text] .operator isWordEnd) :
    Shown style noIn (.name text) node where
  containsCall_eq := hcall
  isNumeric_eq := isNumeric_of_kind hkind
  printed level := by
    obtain ⟨char, rest, htext, hchar, -⟩ := isWord_iff.1 hword
    refine ⟨text, .of_phrase (hphrase level) (by decide) rfl ⟨char, rest, htext, ?_⟩ hscans⟩
    refine beq_eq_false_iff_ne.2 ?_
    rintro rfl
    exact absurd hchar (by decide)

theorem name {text : String} (hkind : node.kind = .identifier)
    (hname : node.lookup "name" = some (.text text)) (hword : isWord text = true)
    (hreserved : text ∉ reservedWords) : Shown style noIn (.name text) node := by
  refine word (fun level => Printer.phrase?_name hkind hname) ?_ ?_ hword
    (Scans.name hword hreserved)
  · rw [Value.containsCall, hkind]
  · rw [hkind]
    exact Kind.noConfusion

theorem self (hkind : node.kind = .thisExpression) : Shown style noIn (.name "this") node := by
  have hthis : Scans .script .operand "this".toList [.word "this"] .operator isWordEnd :=
    Scans.word rfl (.inr (by decide))
  refine word (fun level => Printer.phrase?_self hkind) ?_ ?_ rfl hthis
  · rw [Value.containsCall, hkind]
  · rw [hkind]
    exact Kind.noConfusion

theorem other {inner : List Lexeme} (hkind : node.kind ∉ tightKinds)
    (hspells : node.SpellsLoosely style noIn inner) : Shown style noIn (.other inner) node where
  containsCall_eq := by
    rw [Value.containsCall]
    split
    · rename_i hcall
      exact absurd (hcall ▸ by decide) hkind
    · rename_i hmember
      exact absurd (hmember ▸ by decide) hkind
    · rename_i htagged
      exact absurd (htagged ▸ by decide) hkind
    · rfl
  isNumeric_eq := isNumeric_of_kind fun hliteral => hkind (hliteral ▸ by decide)
  printed level := by
    obtain ⟨text, strength, after, hphrase, hstrength, hscans⟩ := hspells level
    have hnew : strength < Precedence.new := Nat.lt_trans hstrength (by decide)
    refine ⟨parenthesized text, ?_, ?_, ⟨'(', _, toList_parenthesized text, rfl⟩, ?_⟩
    · rw [Value.print_of_phrase hphrase, if_pos hstrength]
    · rw [Value.print_of_phrase hphrase, if_pos hnew]
      rfl
    · exact (hscans.parenthesized rfl .operand).mono fun _ _ => rfl

/-- What stands behind an owner does not change how the text starts. -/
theorem exists_starts {text more : String} (isGroup : Bool)
    (hstarts : ∃ char rest, text.toList = char :: rest ∧ (char == '(') = isGroup) :
    ∃ char rest, (text ++ more).toList = char :: rest ∧ (char == '(') = isGroup := by
  obtain ⟨char, rest, htext, hchar⟩ := hstarts
  exact ⟨char, rest ++ more.toList, by rw [String.toList_append, htext, List.cons_append], hchar⟩

theorem containsCall_of_member (howner : Shown style noIn owner object)
    (hkind : node.kind = .memberExpression) (hobject : node.lookup "object" = some object) :
    node.containsCall = owner.containsCall := by
  obtain ⟨part, hpart, rfl⟩ := Value.exists_part hobject
  rw [Value.containsCall, hkind, hpart]
  exact howner.containsCall_eq

/-- The owner of a member stands as it is. -/
theorem exists_owner (howner : Shown style noIn owner object)
    (hobject : node.lookup "object" = some object) (level : Int) :
    ∃ text, (node.printerIn style noIn).memberOwner level = .ok text ∧
      owner.Printed style noIn object level text := by
  obtain ⟨text, hprinted⟩ := howner.printed level
  obtain ⟨part, hpart, rfl⟩ := Value.require_of_lookup hobject
  have hmember := @Printer.memberOwner_eq_ok _ (node.printerIn style noIn) level _ _ hpart
    hprinted.call_eq
  rw [howner.isNumeric_eq, Bool.false_and, if_neg Bool.false_ne_true] at hmember
  exact ⟨text, hmember, hprinted⟩

theorem member {property : Value} {name : String} (hkind : node.kind = .memberExpression)
    (hcomputed : node.flag "computed" = false) (hobject : node.lookup "object" = some object)
    (hproperty : node.lookup "property" = some property) (howner : Shown style noIn owner object)
    (hname : property.lookup "name" = some (.text name)) (hword : isWord name = true) :
    Shown style noIn (.select owner (.member name)) node where
  containsCall_eq := howner.containsCall_of_member hkind hobject
  isNumeric_eq := isNumeric_of_kind (by rw [hkind]; exact Kind.noConfusion)
  printed level := by
    obtain ⟨text, htext, hprinted⟩ := howner.exists_owner hobject level
    refine ⟨_, .of_phrase (Printer.phrase?_member hkind hcomputed htext hproperty hname)
      (by decide) rfl (exists_starts _ (exists_starts _ hprinted.starts)) ?_⟩
    rw [String.toList_append, String.toList_append, List.append_assoc]
    exact hprinted.scans.append_cons (Scans.member hword) rfl

theorem index {property : Value} {place : List Lexeme} (hkind : node.kind = .memberExpression)
    (hcomputed : node.flag "computed" = true) (hobject : node.lookup "object" = some object)
    (hproperty : node.lookup "property" = some property) (howner : Shown style noIn owner object)
    (hplace : property.Spells style noIn Precedence.sequence place) :
    Shown style noIn (.select owner (.index place)) node where
  containsCall_eq := howner.containsCall_of_member hkind hobject
  isNumeric_eq := isNumeric_of_kind (by rw [hkind]; exact Kind.noConfusion)
  printed level := by
    obtain ⟨text, htext, hprinted⟩ := howner.exists_owner hobject level
    obtain ⟨inner, after, hinner, hscans⟩ := hplace level
    refine ⟨_, .of_phrase (Printer.phrase?_index hkind hcomputed htext
      (Value.expressionAt_printerIn hproperty hinner)) (by decide) rfl
        (exists_starts _ (exists_starts _ (exists_starts _ hprinted.starts))) ?_⟩
    have hsquared := hscans.squared rfl .operator
    rw [String.toList_append, String.toList_append, String.toList_append, List.append_assoc,
      List.append_assoc]
    exact hprinted.scans.append_cons (hsquared.mono fun _ _ => rfl) rfl

theorem call {function : Value} {items : List (List Lexeme × Value)}
    (hkind : node.kind = .callExpression) (hfunction : node.lookup "callee" = some function)
    (hlookup : node.lookup "arguments" = some (.array (items.map Prod.snd)))
    (hcallee : Shown style noIn callee function)
    (hitems : ∀ item ∈ items, item.2.Spells style noIn Precedence.assignment item.1) :
    Shown style noIn (.call callee (items.map Prod.fst)) node where
  containsCall_eq := by
    rw [Value.containsCall, hkind]
    rfl
  isNumeric_eq := isNumeric_of_kind (by rw [hkind]; exact Kind.noConfusion)
  printed level := by
    obtain ⟨text, hprinted⟩ := hcallee.printed level
    obtain ⟨arguments, harguments, hstart, hscans⟩ := exists_arguments hlookup hitems level
    refine ⟨_, .of_phrase (Printer.phrase?_call hkind
      (Value.expressionAt_printerIn hfunction hprinted.call_eq) harguments) (by decide) rfl
        (exists_starts _ hprinted.starts) ?_⟩
    rw [String.toList_append]
    exact hprinted.scans.append_paren hscans hstart

theorem tagged {tag template quasi : Value} {raw : String} {parts : List Interpolation}
    (hkind : node.kind = .taggedTemplateExpression) (htag : node.lookup "tag" = some tag)
    (htemplate : node.lookup "quasi" = some template) (howner : Shown style noIn owner tag)
    (hdepicts : DepictsTemplate style noIn template quasi raw parts) :
    Shown style noIn (.select owner (.template (templateLexemes '\x60' raw.toList
      (parts.map fun part => (part.lexemes, part.raw.toList))))) node where
  containsCall_eq := by
    obtain ⟨part, hpart, rfl⟩ := Value.exists_part htag
    rw [Value.containsCall, hkind, hpart]
    exact howner.containsCall_eq
  isNumeric_eq := isNumeric_of_kind (by rw [hkind]; exact Kind.noConfusion)
  printed level := by
    obtain ⟨text, hprinted⟩ := howner.printed level
    obtain ⟨part, hpart, rfl⟩ := Value.require_of_lookup htemplate
    obtain ⟨written, hwritten, hscans⟩ := exists_template hdepicts level
    have hrecord := Value.asRecord_of_lookup hdepicts.quasis
    refine ⟨_, .of_phrase (Printer.phrase?_tagged hkind
      (Value.expressionAt_printerIn htag hprinted.call_eq) hpart hrecord hwritten) (by decide) rfl
        (exists_starts _ hprinted.starts) ?_⟩
    obtain ⟨rest, hrest, hscans⟩ := hscans
    rw [String.toList_append, hrest]
    exact hprinted.scans.append_cons (hscans.mono fun _ _ => rfl) rfl

end Shown

/-- What is put behind `new`. -/
theorem newCallee_eq_ok {part : Part node} (hcallee : Shown style noIn callee part.value)
    {text : String} (hprinted : callee.Printed style noIn part.value level text) :
    (node.printerIn style noIn).newCallee part level =
      .ok (if callee.isGrouped then parenthesized text else text) := by
  have hexpression : (node.printerIn style noIn).expression part Precedence.new level =
      .ok (.text (if callee.isLoose then parenthesized text else text)) := hprinted.new_eq
  have hstarts : startsWith text "(" = callee.opensGroup := by
    obtain ⟨char, rest, htext, hchar⟩ := hprinted.starts
    rw [← hchar, startsWith, htext, Bool.beq_comm]
    exact Bool.and_true _
  have hparenthesized : startsWith (parenthesized text) "(" = true := by
    rw [startsWith, toList_parenthesized]
    rfl
  simp only [Printer.newCallee, hexpression, Attempt.ok_bind, hcallee.containsCall_eq, isGrouped]
  by_cases hloose : callee.isLoose = true
  · simp only [hloose, if_true, Value.asStarting, Value.asAppended, Attempt.ok_bind,
      hparenthesized, Bool.true_or]
    split <;> rfl
  · rw [Bool.not_eq_true] at hloose
    by_cases hcall : callee.containsCall = true
    · simp only [hloose, hcall, if_true, Bool.false_eq_true, if_false, Value.asStarting,
        Attempt.ok_bind, hstarts, Bool.false_or, Bool.true_and, Bool.not_eq_true']
      cases hopens : callee.opensGroup <;> rfl
    · rw [Bool.not_eq_true] at hcall
      simp only [hloose, hcall, Bool.false_eq_true, if_false, Value.asAppended, Bool.false_or,
        Bool.false_and]

theorem Shown.scans_groupedIf {text : String}
    (hscans : Scans .script .operand text.toList callee.lexemes .operator isWordEnd)
    (isGrouped : Bool) :
    Scans .script .operand (if isGrouped then parenthesized text else text).toList
      (groupedIf isGrouped callee.lexemes) .operator isWordEnd := by
  cases isGrouped with
  | false => exact hscans
  | true => exact (hscans.parenthesized rfl .operand).mono fun _ _ => rfl

/-- What `new` is printed as. -/
theorem exists_newText {function : Value} {items : List (List Lexeme × Value)}
    (hkind : node.kind = .newExpression) (hfunction : node.lookup "callee" = some function)
    (hlookup : node.lookup "arguments" = some (.array (items.map Prod.snd)))
    (hcallee : Shown style noIn callee function)
    (hitems : ∀ item ∈ items, item.2.Spells style noIn Precedence.assignment item.1)
    (level : Int) :
    ∃ text : String, (node.printerIn style noIn).phrase? level =
        some (.ok (.ofText ("new " ++ text) Precedence.new)) ∧
      Scans .script .operand ("new " ++ text).toList
        (Callee.construct callee (items.map Prod.fst)).lexemes .operator isWordEnd := by
  obtain ⟨part, hpart, rfl⟩ := Value.require_of_lookup hfunction
  obtain ⟨text, hprinted⟩ := hcallee.printed level
  obtain ⟨arguments, harguments, hstart, hscans⟩ := exists_arguments hlookup hitems level
  refine ⟨(if callee.isGrouped then parenthesized text else text) ++ arguments, ?_, ?_⟩
  · rw [← String.append_assoc]
    exact Printer.phrase?_new hkind hpart (newCallee_eq_ok hcallee hprinted) harguments
  · have hword : Scans .script .operand "new".toList [.word "new"] .operand isWordEnd :=
      Scans.word rfl (.inr (by decide))
    have hrest := (Shown.scans_groupedIf hprinted.scans callee.isGrouped).append_paren hscans hstart
    rw [String.toList_append, String.toList_append]
    exact hword.append_cons ((Scans.space .operand).append_any hrest) rfl

theorem Shown.construct {function : Value} {items : List (List Lexeme × Value)}
    (hkind : node.kind = .newExpression) (hfunction : node.lookup "callee" = some function)
    (hlookup : node.lookup "arguments" = some (.array (items.map Prod.snd)))
    (hcallee : Shown style noIn callee function)
    (hitems : ∀ item ∈ items, item.2.Spells style noIn Precedence.assignment item.1) :
    Shown style noIn (.construct callee (items.map Prod.fst)) node where
  containsCall_eq := by
    rw [Value.containsCall, hkind]
    rfl
  isNumeric_eq := isNumeric_of_kind (by rw [hkind]; exact Kind.noConfusion)
  printed level := by
    obtain ⟨text, hphrase, hscans⟩ := exists_newText hkind hfunction hlookup hcallee hitems level
    exact ⟨_, .of_phrase hphrase (by decide) rfl ⟨'n', _, String.toList_append, rfl⟩ hscans⟩

theorem shown_of_depicts (hdepicts : Depicts style noIn callee node) :
    Shown style noIn callee node := by
  induction hdepicts with
  | name hkind hname hword hreserved => exact .name hkind hname hword hreserved
  | self hkind => exact .self hkind
  | other hkind hspells _ _ => exact .other hkind hspells
  | member hkind hcomputed hobject hproperty _ hname hword ih =>
    exact .member hkind hcomputed hobject hproperty ih hname hword
  | index hkind hcomputed hobject hproperty _ hplace _ ih =>
    exact .index hkind hcomputed hobject hproperty ih hplace
  | tagged hkind htag htemplate _ hdepicts ih => exact .tagged hkind htag htemplate ih hdepicts
  | call hkind hfunction hlookup _ hitems _ ih => exact .call hkind hfunction hlookup ih hitems
  | construct hkind hfunction hlookup _ hitems _ ih =>
    exact .construct hkind hfunction hlookup ih hitems

theorem isProper_of_depicts (hdepicts : Depicts style noIn callee node) : callee.IsProper := by
  induction hdepicts with
  | name _ _ _ hreserved => exact .inl hreserved
  | self _ => exact .inr rfl
  | other _ _ hclosed hchain => exact ⟨hclosed, hchain⟩
  | member _ _ _ _ _ _ _ ih => exact ⟨ih, trivial⟩
  | index _ _ _ _ _ _ hclosed ih => exact ⟨ih, hclosed⟩
  | tagged _ _ _ _ hdepicts ih =>
    refine ⟨ih, isTemplate_templateLexemes fun piece hpiece => ?_⟩
    obtain ⟨part, hpart, rfl⟩ := List.mem_map.1 hpiece
    exact hdepicts.closed part hpart
  | call _ _ _ _ _ harguments ih => exact ⟨ih, List.forall_mem_map.2 harguments⟩
  | construct _ _ _ _ _ harguments ih => exact ⟨ih, List.forall_mem_map.2 harguments⟩

/-- What `new` is printed as is read as one tree.  That is the tree that was printed unless a
callee goes through a call and is not in parentheses as a whole. -/
theorem new_reads_back_iff {items : List (List Lexeme)} {strength : Nat}
    (hdepicts : Depicts style noIn (.construct callee items) node)
    (hstrength : strength ≤ Precedence.new) (level : Int) :
    ∃ text lexemes tree, (node.print style noIn).expression strength level = .ok (.text text) ∧
      lexemes? text = some lexemes ∧
      (∀ other, (∃ tier, Reads tier lexemes other) ↔ other = tree) ∧
      (tree = .construct callee items ↔ (Callee.construct callee items).isSound = true) := by
  obtain ⟨tree, hreads, hsound⟩ := (isProper_of_depicts hdepicts).exists_reading
  cases hdepicts with
  | construct hkind hfunction hlookup hcallee hitems _ =>
    obtain ⟨text, hphrase, hscans⟩ :=
      exists_newText hkind hfunction hlookup (shown_of_depicts hcallee) hitems level
    have hprint := Value.print_of_phrase hphrase strength
    rw [if_neg (Nat.not_lt_of_le hstrength)] at hprint
    exact ⟨_, _, tree, hprint, hscans.lexFrom_eq, hreads, hsound⟩

/-- The callee `a().b`. -/
def calledMember : Callee :=
  .select (.call (.name "a") []) (.member "b")

/-- The tree of `new (a().b)(x)`. -/
def groupedNew : Value :=
  Build.construct (Build.member (Build.call (Build.name "a") []) "b") [Build.name "x"]

/-- The expression `0, a.b`. -/
def zeroThenMember : List Lexeme :=
  [.literal "0", .comma, .word "a", .mark ".", .word "b"]

/-- The callee `(0, a.b)().C`. -/
def calledSequence : Callee :=
  .select (.call (.other zeroThenMember) []) (.member "C")

/-- The tree of `new ((0, a.b)().C)(x)`. -/
def lostNew : Value :=
  Build.construct (Build.member (Build.call (Build.sequence [Build.number 0,
    Build.member (Build.name "a") "b"]) []) "C") [Build.name "x"]

theorem closed_zeroThenMember : Closed [] zeroThenMember ∧ ¬ IsChain zeroThenMember :=
  ⟨by decide, fun hchain =>
    absurd (@IsChain.closed [.comma] _ hchain (List.forall_mem_singleton.2 rfl)) (by decide)⟩

/-- A member of a call, constructed with one argument. -/
theorem depicts_construct {callee : Callee} {node : Value} {name : String}
    (hcallee : Depicts {} false callee node) (hname : isWord name = true) :
    Depicts {} false (.construct (.select (.call callee []) (.member name)) [[.word "x"]])
      (Build.construct (Build.member (Build.call node []) name) [Build.name "x"]) := by
  have hcall : Depicts {} false (.call callee []) (Build.call node []) :=
    @Depicts.call _ _ _ _ _ [] rfl rfl rfl hcallee (List.forall_mem_nil _) (List.forall_mem_nil _)
  have hargument : Debundle.Depicts (.name "x") (Build.name "x") := .name rfl rfl rfl (by decide)
  have hspells : (Build.name "x").Spells {} false Precedence.assignment [.word "x"] :=
    hargument.spells "x" (by decide +kernel) (by decide +kernel)
  exact @Depicts.construct _ _ _ _ _ [([.word "x"], Build.name "x")] rfl rfl rfl
    (.member rfl rfl rfl rfl hcall rfl hname) (List.forall_mem_singleton.2 hspells)
    (List.forall_mem_singleton.2 ⟨List.cons_ne_nil _ _, by decide⟩)

theorem depicts_groupedNew :
    Depicts {} false (.construct calledMember [[.word "x"]]) groupedNew :=
  depicts_construct (.name rfl rfl rfl (by decide)) rfl

theorem depicts_lostNew :
    Depicts {} false (.construct calledSequence [[.word "x"]]) lostNew := by
  have hzero : Debundle.Depicts (.literal "0") (Build.number 0) :=
    .literal rfl (by decide +kernel) rfl fun _ => rfl
  have hname : Debundle.Depicts (.name "a") (Build.name "a") := .name rfl rfl rfl (by decide)
  have hsequence : Debundle.Depicts (.sequence [.literal "0", .member (.name "a") "b"])
      (Build.sequence [Build.number 0, Build.member (Build.name "a") "b"]) :=
    @Debundle.Depicts.sequence _ [(_, _), (_, _)] rfl rfl (by decide)
      (List.forall_mem_cons.2 ⟨hzero, List.forall_mem_singleton.2
        (.member rfl rfl rfl rfl hname rfl rfl rfl)⟩)
  obtain ⟨text, strength, lexemes, hshows, hlexemes, hspells, -⟩ :=
    hsequence.exists_spellsLoosely rfl {}
  have hprint : (Value.print {} false (Build.sequence [Build.number 0,
      Build.member (Build.name "a") "b"])).expression 0 0 = .ok (.text "0, a.b") := by
    decide +kernel
  have hfound : lexemes? "0, a.b" = some zeroThenMember := by decide +kernel
  have hown := (hshows 0).printsAs 0
  rw [if_neg (Nat.not_lt_zero strength)] at hown
  cases hprint.symm.trans hown
  cases hfound.symm.trans hlexemes
  exact depicts_construct (.other (by decide) hspells closed_zeroThenMember.1
    closed_zeroThenMember.2) rfl

/-- One callee stands in parentheses as a whole, the other one only in part. -/
theorem new_reads_back_iff_groupedNew :
    (Depicts {} false (.construct calledMember [[.word "x"]]) groupedNew ∧
        Depicts {} false (.construct calledSequence [[.word "x"]]) lostNew ∧
        0 ≤ Precedence.new) ∧
      (∃ text lexemes tree, (groupedNew.print {} false).expression 0 0 = .ok (.text text) ∧
        lexemes? text = some lexemes ∧
        (∀ other, (∃ tier, Reads tier lexemes other) ↔ other = tree) ∧
        (tree = .construct calledMember [[.word "x"]] ↔
          (Callee.construct calledMember [[.word "x"]]).isSound = true)) ∧
      ∃ text lexemes tree, (lostNew.print {} false).expression 0 0 = .ok (.text text) ∧
        lexemes? text = some lexemes ∧
        (∀ other, (∃ tier, Reads tier lexemes other) ↔ other = tree) ∧
        (tree = .construct calledSequence [[.word "x"]] ↔
          (Callee.construct calledSequence [[.word "x"]]).isSound = true) :=
  ⟨⟨depicts_groupedNew, depicts_lostNew, by decide⟩,
    new_reads_back_iff depicts_groupedNew (by decide) 0,
    new_reads_back_iff depicts_lostNew (by decide) 0⟩

/-- The parentheses of the sequence are taken for parentheses around the whole callee, and
`new` is left with the arguments of the call in it. -/
theorem new_loses_callee :
    (lostNew.print {} false).expression Precedence.sequence 0 =
        .ok (.text "new (0, a.b)().C(x)") ∧
      ∃ lexemes, lexemes? "new (0, a.b)().C(x)" = some lexemes ∧
        Reads .call lexemes
          (.call (.select (.construct (.other zeroThenMember) []) (.member "C")) [[.word "x"]]) ∧
        ∀ tier, ¬ Reads tier lexemes (.construct calledSequence [[.word "x"]]) := by
  have hconstruct : Reads .member (.word "new" :: (grouped zeroThenMember ++ grouped []))
      (.construct (.other zeroThenMember) []) :=
    .construct (.other closed_zeroThenMember.1 closed_zeroThenMember.2) .none
      (List.forall_mem_nil _)
  have hargument : ∀ item ∈ [[Lexeme.word "x"]], IsArgument item :=
    List.forall_mem_singleton.2 ⟨List.cons_ne_nil _ _, by decide⟩
  have hmember := @Reads.select _ _ _ (.member "C") Tier.noConfusion hconstruct trivial
  have hcall := hmember.call Tier.noConfusion (argumentList_separated _) hargument
  refine ⟨by decide +kernel, _, ?_, hcall, fun tier hother => ?_⟩
  · decide +kernel
  · cases hcall.unique hother

end Callee

end Debundle
