import Mathlib.Data.List.Basic
import Debundle.Proofs.Script.Derivation

/-!
# Brackets

What stands between two brackets of a script can be told from the brackets alone.  A sequence
of lexemes is closed if each bracket that is opened in it is closed in it, and none besides.
The first lexeme that cannot belong to a closed sequence therefore marks its end, wherever the
sequence stands.

The pieces of a template are lexemes, too: a backtick opens it, and an expression inside stands
between a piece that ends with `${` and one that starts with a brace.
-/

namespace Debundle

inductive Bracket where
  | paren | square | brace | template
  deriving DecidableEq

/-- What a lexeme has to do with brackets. -/
inductive BracketRole where
  | opens (bracket : Bracket)
  | closes (bracket : Bracket)
  /-- The piece of a template between two expressions. -/
  | divides
  | plain
  deriving DecidableEq

/-- Only the pieces of templates start with a backtick or a brace. -/
def Lexeme.role : Lexeme → BracketRole
  | .mark "(" => .opens .paren
  | .mark ")" => .closes .paren
  | .mark "[" => .opens .square
  | .mark "]" => .closes .square
  | .mark "\x7b" => .opens .brace
  | .mark "\x7d" => .closes .brace
  | .literal text =>
    match text.toList.head?, text.toList.getLast? with
    | some '\x60', some '\x7b' => .opens .template
    | some '\x7d', some '\x7b' => .divides
    | some '\x7d', some '\x60' => .closes .template
    | _, _ => .plain
  | _ => .plain

/-- The open brackets behind a lexeme, the innermost first. -/
def BracketRole.nest (isStop : Bool) : BracketRole → List Bracket → Option (List Bracket)
  | .opens bracket, stack => some (bracket :: stack)
  | .closes bracket, top :: rest => if top = bracket then some rest else none
  | .closes _, [] => none
  | .divides, .template :: rest => some (.template :: rest)
  | .divides, _ => none
  | .plain, [] => if isStop then none else some []
  | .plain, top :: rest => some (top :: rest)

/-- The open brackets behind a lexeme.  Where none is open, the lexemes in `stops` may not
stand. -/
def nest (stops : List Lexeme) (stack : List Bracket) (lexeme : Lexeme) :
    Option (List Bracket) :=
  lexeme.role.nest (stops.contains lexeme) stack

/-- All brackets match, and outside of them there is none of the lexemes in `stops`. -/
def Closed (stops : List Lexeme) (lexemes : List Lexeme) : Prop :=
  lexemes.foldlM (nest stops) [] = some []

instance (stops lexemes : List Lexeme) : Decidable (Closed stops lexemes) :=
  inferInstanceAs (Decidable (_ = _))

section

variable {stops fewer lexemes front back rest more : List Lexeme} {lexeme : Lexeme}
  {stack next base : List Bracket} {bracket : Bracket}

/-- Brackets that are open further out make no difference. -/
theorem BracketRole.nest_append {role : BracketRole} {isStop isLess : Bool}
    (hnest : role.nest isStop stack = some next)
    (hbase : base ≠ [] ∨ (isLess = true → isStop = true)) :
    role.nest isLess (stack ++ base) = some (next ++ base) := by
  cases role with
  | opens bracket =>
    cases hnest
    rfl
  | closes bracket =>
    cases stack with
    | nil => cases hnest
    | cons top rest =>
      rw [BracketRole.nest] at hnest
      rw [List.cons_append, BracketRole.nest]
      split_ifs at hnest with htop
      cases hnest
      rw [if_pos htop]
  | divides =>
    cases stack with
    | nil => cases hnest
    | cons top rest =>
      cases top with
      | template =>
        cases hnest
        rfl
      | _ => cases hnest
  | plain =>
    cases stack with
    | cons top rest =>
      cases hnest
      rfl
    | nil =>
      rw [BracketRole.nest] at hnest
      split_ifs at hnest with hstop
      cases hnest
      cases base with
      | cons top rest => rfl
      | nil => exact if_neg fun hless => hstop (hbase.resolve_left (fun hne => hne rfl) hless)

theorem nest_append (hnest : nest stops stack lexeme = some next)
    (hbase : base ≠ [] ∨ fewer ⊆ stops) :
    nest fewer (stack ++ base) lexeme = some (next ++ base) := by
  refine BracketRole.nest_append hnest (hbase.imp_right fun hsubset hmem => ?_)
  rw [List.contains_iff_mem] at hmem ⊢
  exact hsubset hmem

theorem foldlM_nest_append (hrun : lexemes.foldlM (nest stops) stack = some next)
    (hbase : base ≠ [] ∨ fewer ⊆ stops) :
    lexemes.foldlM (nest fewer) (stack ++ base) = some (next ++ base) := by
  induction lexemes generalizing stack with
  | nil =>
    cases hrun
    rfl
  | cons lexeme lexemes ih =>
    rw [List.foldlM_cons] at hrun ⊢
    obtain ⟨between, hnest, hrest⟩ := Option.bind_eq_some_iff.1 hrun
    rw [nest_append hnest hbase]
    exact ih hrest

namespace Closed

theorem nil (stops : List Lexeme) : Closed stops [] :=
  rfl

theorem mono (hclosed : Closed stops lexemes) (hfewer : fewer ⊆ stops) : Closed fewer lexemes := by
  have hrun := @foldlM_nest_append _ _ _ _ _ [] hclosed (.inr hfewer)
  rwa [List.append_nil] at hrun

/-- Inside brackets every lexeme may stand. -/
theorem inside (hclosed : Closed stops lexemes) (fewer : List Lexeme) (hbase : base ≠ []) :
    lexemes.foldlM (nest fewer) base = some base :=
  foldlM_nest_append hclosed (.inl hbase)

theorem append (hfront : Closed stops front) (hback : Closed stops back) :
    Closed stops (front ++ back) := by
  rw [Closed, List.foldlM_append, show front.foldlM (nest stops) [] = some [] from hfront]
  exact hback

theorem single (hrole : lexeme.role = .plain) (hstop : lexeme ∉ stops) :
    Closed stops [lexeme] := by
  simp [Closed, nest, hrole, BracketRole.nest, hstop]

theorem cons (hrole : lexeme.role = .plain) (hstop : lexeme ∉ stops)
    (hclosed : Closed stops lexemes) : Closed stops (lexeme :: lexemes) :=
  (single hrole hstop).append hclosed

theorem group {first last : Lexeme} (hfirst : first.role = .opens bracket)
    (hlast : last.role = .closes bracket) (hinner : Closed fewer lexemes) :
    Closed stops (first :: lexemes ++ [last]) := by
  have hopen : nest stops [] first = some [bracket] := by rw [nest, hfirst, BracketRole.nest]
  have hclose : nest stops [bracket] last = some [] := by
    rw [nest, hlast, BracketRole.nest, if_pos rfl]
  rw [Closed, List.cons_append, List.foldlM_cons, hopen, Option.bind_eq_bind, Option.bind_some,
    List.foldlM_append, hinner.inside stops (List.cons_ne_nil _ _), Option.bind_eq_bind,
    Option.bind_some, List.foldlM_cons, hclose]
  rfl

theorem flatMap {α : Type} {items : List α} {lexemesOf : α → List Lexeme}
    (hitems : ∀ item ∈ items, Closed stops (lexemesOf item)) :
    Closed stops (items.flatMap lexemesOf) := by
  induction items with
  | nil => exact Closed.nil stops
  | cons item items ih =>
    rw [List.forall_mem_cons] at hitems
    exact hitems.1.append (ih hitems.2)

theorem not_append_cons (hfront : Closed stops front) (hend : nest stops [] lexeme = none) :
    ¬ Closed stops (front ++ lexeme :: rest) := by
  intro hclosed
  rw [Closed, List.foldlM_append, show front.foldlM (nest stops) [] = some [] from hfront,
    Option.bind_eq_bind, Option.bind_some, List.foldlM_cons, hend] at hclosed
  cases hclosed

/-- A closed sequence ends in front of the first lexeme that cannot belong to it. -/
theorem split {another : Lexeme} (hfront : Closed stops front) (hback : Closed stops back)
    (hend : nest stops [] lexeme = none) (hother : nest stops [] another = none)
    (heq : front ++ lexeme :: rest = back ++ another :: more) :
    front = back ∧ lexeme = another ∧ rest = more := by
  obtain ⟨tail, rfl, htail⟩ | ⟨tail, rfl, htail⟩ := List.append_eq_append_iff.1 heq
  · cases tail with
    | nil =>
      cases htail
      exact ⟨(List.append_nil _).symm, rfl, rfl⟩
    | cons first tail =>
      cases htail
      exact absurd hback (hfront.not_append_cons hend)
  · cases tail with
    | nil =>
      cases htail
      exact ⟨List.append_nil _, rfl, rfl⟩
    | cons first tail =>
      cases htail
      exact absurd hfront (hback.not_append_cons hother)

/-- As long as the brackets are not closed, the first one is open. -/
theorem open_of_isPrefix (hclosed : Closed stops lexemes) (hfront : front <+: lexemes)
    (fewer : List Lexeme) (bracket : Bracket) :
    ∃ stack, front.foldlM (nest fewer) [bracket] = some (stack ++ [bracket]) := by
  obtain ⟨back, rfl⟩ := hfront
  rw [Closed, List.foldlM_append] at hclosed
  obtain ⟨stack, hrun, -⟩ := Option.bind_eq_some_iff.1 hclosed
  exact ⟨stack, foldlM_nest_append hrun (.inl (List.cons_ne_nil _ _))⟩

/-- What stands behind a closed sequence in brackets is told from the end, too. -/
theorem not_group_append {first last : Lexeme} (hfirst : first.role = .opens bracket)
    (hinner : Closed fewer lexemes) (hfront : Closed stops (first :: front))
    (heq : lexemes ++ [last] = front ++ lexeme :: rest) : False := by
  have hprefix : front <+: lexemes := by
    have hlength : front.length ≤ lexemes.length := by
      have hlengths := congrArg List.length heq
      simp only [List.length_append, List.length_cons, List.length_nil] at hlengths
      omega
    have hwhole : front <+: lexemes ++ [last] := heq ▸ List.prefix_append _ _
    exact List.prefix_of_prefix_length_le hwhole (List.prefix_append _ _) hlength
  obtain ⟨stack, hrun⟩ := hinner.open_of_isPrefix hprefix stops bracket
  have hopen : nest stops [] first = some [bracket] := by rw [nest, hfirst, BracketRole.nest]
  rw [Closed, List.foldlM_cons, hopen] at hfront
  cases stack with
  | nil => cases hrun.symm.trans hfront
  | cons top stack => cases hrun.symm.trans hfront

theorem right (hfront : Closed stops front) (hclosed : Closed stops (front ++ back)) :
    Closed stops back := by
  rw [Closed] at hfront
  rw [Closed, List.foldlM_append, hfront] at hclosed
  exact hclosed

/-- Of a closed sequence that ends with a group, the group is told from the end. -/
theorem split_group {first last another final : Lexeme} {inner other : List Lexeme}
    (hfirst : first.role = .opens bracket) (hanother : another.role = .opens bracket)
    (hfront : Closed stops front) (hback : Closed stops back) (hinner : Closed fewer inner)
    (hother : Closed fewer other)
    (heq : front ++ first :: inner ++ [last] = back ++ another :: other ++ [final]) :
    front = back ∧ inner = other := by
  rw [List.append_assoc, List.append_assoc, List.cons_append, List.cons_append] at heq
  obtain ⟨tail, rfl, htail⟩ | ⟨tail, rfl, htail⟩ := List.append_eq_append_iff.1 heq
  · cases tail with
    | nil => exact ⟨(List.append_nil _).symm, List.append_inj_left' (List.cons.inj htail).2 rfl⟩
    | cons lexeme tail =>
      obtain ⟨rfl, hinside⟩ := List.cons.inj htail
      exact (not_group_append hfirst hinner (hfront.right hback) hinside).elim
  · cases tail with
    | nil => exact ⟨List.append_nil _, (List.append_inj_left' (List.cons.inj htail).2 rfl).symm⟩
    | cons lexeme tail =>
      obtain ⟨rfl, hinside⟩ := List.cons.inj htail
      exact (not_group_append hanother hother (hback.right hfront) hinside).elim

end Closed

end

/-- Lexemes in parentheses. -/
def grouped (lexemes : List Lexeme) : List Lexeme :=
  .mark "(" :: lexemes ++ [.mark ")"]

theorem closed_grouped {stops inner : List Lexeme} (hinner : Closed [] inner) :
    Closed stops (grouped inner) :=
  Closed.group rfl rfl hinner

theorem split_grouped {inner other rest more : List Lexeme} (hinner : Closed [] inner)
    (hother : Closed [] other) (heq : grouped inner ++ rest = grouped other ++ more) :
    inner = other ∧ rest = more := by
  simp only [grouped, List.cons_append, List.append_assoc, List.cons.injEq, true_and] at heq
  obtain ⟨rfl, -, rfl⟩ := hinner.split hother rfl rfl heq
  exact ⟨rfl, rfl⟩

/-- Closed sequences with a lexeme behind each, of which only the last one ends the row. -/
inductive Row (stops : List Lexeme) (divides ends : Lexeme → Prop) :
    List (List Lexeme) → List Lexeme → Prop where
  | last {segment : List Lexeme} {lexeme : Lexeme} :
      Closed stops segment → ends lexeme →
      Row stops divides ends [segment] (segment ++ [lexeme])
  | more {segment lexemes : List Lexeme} {lexeme : Lexeme} {segments : List (List Lexeme)} :
      Closed stops segment → divides lexeme → Row stops divides ends segments lexemes →
      Row stops divides ends (segment :: segments) (segment ++ lexeme :: lexemes)

namespace Row

variable {stops lexemes others rest more : List Lexeme} {divides ends : Lexeme → Prop}
  {segments pieces : List (List Lexeme)}

/-- A row is told from what follows it, and its segments from each other. -/
theorem split (hdivides : ∀ lexeme, divides lexeme → nest stops [] lexeme = none ∧ ¬ ends lexeme)
    (hends : ∀ lexeme, ends lexeme → nest stops [] lexeme = none)
    (hrow : Row stops divides ends segments lexemes) (hother : Row stops divides ends pieces others)
    (heq : lexemes ++ rest = others ++ more) :
    segments = pieces ∧ lexemes = others ∧ rest = more := by
  induction hrow generalizing pieces others with
  | @last segment lexeme hclosed hend =>
    cases hother with
    | last hpiece hfinal =>
      rw [List.append_assoc, List.append_assoc] at heq
      obtain ⟨rfl, rfl, rfl⟩ := hclosed.split hpiece (hends _ hend) (hends _ hfinal) heq
      exact ⟨rfl, rfl, rfl⟩
    | more hpiece hdivider _ =>
      rw [List.append_assoc, List.append_assoc] at heq
      obtain ⟨-, rfl, -⟩ := hclosed.split hpiece (hends _ hend) (hdivides _ hdivider).1 heq
      exact absurd hend (hdivides _ hdivider).2
  | @more segment lexemes lexeme segments hclosed hdivider _ ih =>
    cases hother with
    | last hpiece hfinal =>
      rw [List.append_assoc, List.append_assoc] at heq
      obtain ⟨-, rfl, -⟩ := hclosed.split hpiece (hdivides _ hdivider).1 (hends _ hfinal) heq
      exact absurd hfinal (hdivides _ hdivider).2
    | more hpiece hother hrest =>
      rw [List.append_assoc, List.append_assoc] at heq
      obtain ⟨rfl, rfl, htail⟩ :=
        hclosed.split hpiece (hdivides _ hdivider).1 (hdivides _ hother).1 heq
      obtain ⟨rfl, rfl, rfl⟩ := ih hrest htail
      exact ⟨rfl, rfl, rfl⟩

end Row

/-- The lexemes of a template: one piece of text, or pieces with expressions between them. -/
inductive IsTemplate : List Lexeme → Prop where
  | whole {text : String} :
      text.toList.head? = some '\x60' → (Lexeme.literal text).role = .plain →
      IsTemplate [.literal text]
  | pieces {text : String} {lexemes : List Lexeme} {segments : List (List Lexeme)} :
      (Lexeme.literal text).role = .opens .template →
      Row [] (·.role = .divides) (·.role = .closes .template) segments lexemes →
      IsTemplate (.literal text :: lexemes)

theorem IsTemplate.exists_literal {lexemes : List Lexeme} (htemplate : IsTemplate lexemes) :
    ∃ text rest, lexemes = .literal text :: rest := by
  cases htemplate with
  | whole _ _ => exact ⟨_, _, rfl⟩
  | pieces _ _ => exact ⟨_, _, rfl⟩

theorem IsTemplate.split {lexemes others rest more : List Lexeme} (htemplate : IsTemplate lexemes)
    (hother : IsTemplate others) (heq : lexemes ++ rest = others ++ more) :
    lexemes = others ∧ rest = more := by
  cases htemplate with
  | whole _ hrole =>
    cases hother with
    | whole _ _ =>
      cases heq
      exact ⟨rfl, rfl⟩
    | pieces hopens _ =>
      cases heq
      cases hrole.symm.trans hopens
  | pieces hopens hrow =>
    cases hother with
    | whole _ hrole =>
      cases heq
      cases hrole.symm.trans hopens
    | pieces _ hother =>
      obtain ⟨hfirst, hrest⟩ := List.cons.inj heq
      have hdivides : ∀ lexeme : Lexeme, lexeme.role = .divides →
          nest [] [] lexeme = none ∧ ¬ lexeme.role = .closes .template := by
        intro lexeme hrole
        rw [nest, hrole]
        exact ⟨rfl, BracketRole.noConfusion⟩
      have hcloses : ∀ lexeme : Lexeme, lexeme.role = .closes .template →
          nest [] [] lexeme = none := by
        intro lexeme hrole
        rw [nest, hrole, BracketRole.nest]
      obtain ⟨-, rfl, rfl⟩ := hrow.split hdivides hcloses hother hrest
      rw [hfirst]
      exact ⟨rfl, rfl⟩

theorem IsTemplate.closed {stops lexemes : List Lexeme} (htemplate : IsTemplate lexemes)
    (hstops : ∀ text, .literal text ∉ stops) : Closed stops lexemes := by
  cases htemplate with
  | @whole text _ hrole => exact .single hrole (hstops text)
  | @pieces text lexemes segments hopens hrow =>
    have hrest : lexemes.foldlM (nest stops) [.template] = some [] := by
      induction hrow with
      | last hclosed hcloses =>
        rw [List.foldlM_append, hclosed.inside stops (List.cons_ne_nil _ _),
          Option.bind_eq_bind, Option.bind_some, List.foldlM_cons, nest, hcloses,
          BracketRole.nest, if_pos rfl]
        rfl
      | more hclosed hdivides _ ih =>
        rw [List.foldlM_append, hclosed.inside stops (List.cons_ne_nil _ _),
          Option.bind_eq_bind, Option.bind_some, List.foldlM_cons, nest, hdivides]
        exact ih
    rw [Closed, List.foldlM_cons, nest, hopens]
    exact hrest

section ArgumentList

variable {items others : List (List Lexeme)} {lexemes rest more : List Lexeme}

/-- An argument is told from the next one by the comma. -/
def IsArgument (item : List Lexeme) : Prop :=
  item ≠ [] ∧ Closed [.comma] item

/-- Arguments with a comma behind each of them, or a parenthesis behind the last one. -/
abbrev ArgumentRow : List (List Lexeme) → List Lexeme → Prop :=
  Row [.comma] (· = .comma) (· = .mark ")")

theorem Separated.row (hseparated : Separated items lexemes)
    (hitems : ∀ item ∈ items, IsArgument item) {segments : List (List Lexeme)}
    (hrest : rest = [.mark ")"] ∧ segments = [] ∨
      ∃ more, rest = .comma :: more ∧ ArgumentRow segments more) :
    ArgumentRow (items ++ segments) (lexemes ++ rest) := by
  induction hseparated with
  | last item =>
    have hclosed := (hitems item List.mem_cons_self).2
    obtain ⟨rfl, rfl⟩ | ⟨more, rfl, hrow⟩ := hrest
    · exact .last hclosed rfl
    · exact .more hclosed rfl hrow
  | @item item items lexemes _ ih =>
    rw [List.append_assoc, List.cons_append, List.cons_append]
    refine .more (hitems item List.mem_cons_self).2 rfl (ih fun other hmem => ?_)
    exact hitems other (List.mem_cons_of_mem item hmem)

theorem ArgumentList.exists_row (harguments : ArgumentList items lexemes)
    (hitems : ∀ item ∈ items, IsArgument item) :
    ∃ segments, ArgumentRow segments (lexemes ++ [.mark ")"]) ∧
      segments.filter (· ≠ []) = items := by
  have hfilter : items.filter (· ≠ []) = items :=
    List.filter_eq_self.2 fun item hmem => decide_eq_true (hitems item hmem).1
  cases harguments with
  | none => exact ⟨[[]], .last (Closed.nil _) rfl, rfl⟩
  | some hseparated =>
    refine ⟨items, ?_, hfilter⟩
    have hrow := hseparated.row hitems (.inl ⟨rfl, rfl⟩)
    rwa [List.append_nil] at hrow
  | someComma hseparated =>
    refine ⟨items ++ [[]], ?_, ?_⟩
    · rw [List.append_assoc]
      exact hseparated.row hitems (.inr ⟨_, rfl, .last (Closed.nil _) rfl⟩)
    · rw [List.filter_append, hfilter]
      exact List.append_nil items

/-- The arguments of a call can be told from its lexemes. -/
theorem ArgumentList.unique (harguments : ArgumentList items lexemes)
    (hother : ArgumentList others lexemes) (hitems : ∀ item ∈ items, IsArgument item)
    (hothers : ∀ item ∈ others, IsArgument item) : items = others := by
  obtain ⟨segments, hrow, rfl⟩ := harguments.exists_row hitems
  obtain ⟨pieces, hpieces, rfl⟩ := hother.exists_row hothers
  have hcomma : ∀ lexeme : Lexeme, lexeme = .comma →
      nest [.comma] [] lexeme = Option.none ∧ ¬ lexeme = .mark ")" := by
    rintro _ rfl
    decide
  have hend : ∀ lexeme : Lexeme, lexeme = .mark ")" →
      nest [.comma] [] lexeme = Option.none := by
    rintro _ rfl
    decide
  have hsame : lexemes ++ [.mark ")"] ++ [] = lexemes ++ [.mark ")"] ++ [] := rfl
  rw [(hrow.split hcomma hend hpieces hsame).1]

theorem Separated.closed {stops : List Lexeme} (hseparated : Separated items lexemes)
    (hcomma : .comma ∉ stops) (hitems : ∀ item ∈ items, Closed stops item) :
    Closed stops lexemes := by
  induction hseparated with
  | last item => exact hitems item List.mem_cons_self
  | @item item items lexemes _ ih =>
    rw [List.forall_mem_cons] at hitems
    exact hitems.1.append ((ih hitems.2).cons rfl hcomma)

theorem ArgumentList.closed (harguments : ArgumentList items lexemes)
    (hitems : ∀ item ∈ items, IsArgument item) : Closed [] lexemes := by
  have hclosed : ∀ item ∈ items, Closed [] item :=
    fun item hmem => (hitems item hmem).2.mono (List.nil_subset _)
  cases harguments with
  | none => exact Closed.nil []
  | some hseparated => exact hseparated.closed List.not_mem_nil hclosed
  | someComma hseparated =>
    exact (hseparated.closed List.not_mem_nil hclosed).append (.single rfl List.not_mem_nil)

/-- Items with a comma between them. -/
def separated : List (List Lexeme) → List Lexeme
  | [] => []
  | [item] => item
  | item :: next :: rest => item ++ .comma :: separated (next :: rest)

theorem separated_of_ne_nil (hitems : items ≠ []) : Separated items (separated items) := by
  cases items with
  | nil => exact absurd rfl hitems
  | cons item items =>
    clear hitems
    induction items generalizing item with
    | nil => exact .last item
    | cons next rest ih => exact .item item (ih next)

theorem argumentList_separated (items : List (List Lexeme)) :
    ArgumentList items (separated items) := by
  cases items with
  | nil => exact .none
  | cons item items => exact .some (separated_of_ne_nil (List.cons_ne_nil item items))

end ArgumentList

end Debundle
