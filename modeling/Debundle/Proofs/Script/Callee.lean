import Mathlib.Logic.Function.Iterate
import Debundle.Proofs.Script.Brackets

/-!
# What `new` is applied to

The part of the grammar of ECMAScript that tells the arguments of `new` from those of a call:
names, members, templates behind a tag, calls and `new`.  Arguments, places in brackets and
what stands in parentheses are sequences of lexemes that are not looked into, unless what stands
in parentheses is itself such a chain, in which case the parentheses mean nothing.

Every sequence of lexemes has at most one reading.  It falls into a number of `new`, a base and
what follows the base, and the arguments go to the innermost `new` that has none yet.
-/

namespace Debundle

/-- What is selected from an owner. -/
inductive Selector where
  | member (name : String)
  | index (place : List Lexeme)
  /-- The template behind a tag. -/
  | template (lexemes : List Lexeme)

/-- A chain. -/
inductive Callee where
  /-- A name or `this`. -/
  | name (text : String)
  /-- An expression in parentheses that is no chain. -/
  | other (inner : List Lexeme)
  | select (owner : Callee) (selector : Selector)
  | call (callee : Callee) (arguments : List (List Lexeme))
  | construct (callee : Callee) (arguments : List (List Lexeme))

namespace Selector

def lexemes : Selector → List Lexeme
  | .member name => [.mark ".", .word name]
  | .index place => .mark "[" :: place ++ [.mark "]"]
  | .template lexemes => lexemes

def IsProper : Selector → Prop
  | .member _ => True
  | .index place => Closed [] place
  | .template lexemes => IsTemplate lexemes

end Selector

namespace Callee

/-- The words that can be read as a name here. -/
def IsName (text : String) : Prop :=
  text ∉ reservedWords ∨ text = "this"

/-- What a chain starts with, behind any number of `new`. -/
inductive Base where
  | name (text : String)
  | group (inner : List Lexeme)

/-- What follows in a chain: what is selected from the chain so far, or arguments with their
lexemes. -/
inductive Suffix where
  | select (selector : Selector)
  | arguments (inner : List Lexeme) (items : List (List Lexeme))

/-- The outer form of a chain. -/
structure Spine where
  news : Nat
  base : Base
  suffixes : List Suffix

namespace Base

def lexemes : Base → List Lexeme
  | .name text => [.word text]
  | .group inner => grouped inner

def IsProper : Base → Prop
  | .name text => IsName text
  | .group inner => Closed [] inner

end Base

namespace Suffix

def lexemes : Suffix → List Lexeme
  | .select selector => selector.lexemes
  | .arguments inner _ => grouped inner

def IsProper : Suffix → Prop
  | .select selector => selector.IsProper
  | .arguments inner items => ArgumentList items inner ∧ ∀ item ∈ items, IsArgument item

def isArguments : Suffix → Bool
  | .select _ => false
  | .arguments _ _ => true

end Suffix

namespace Spine

def lexemes (spine : Spine) : List Lexeme :=
  List.replicate spine.news (.word "new") ++
    (spine.base.lexemes ++ spine.suffixes.flatMap Suffix.lexemes)

structure IsProper (spine : Spine) : Prop where
  base : spine.base.IsProper
  suffixes : ∀ suffix ∈ spine.suffixes, suffix.IsProper

end Spine

/-- Has the outer form of a chain. -/
def IsChain (lexemes : List Lexeme) : Prop :=
  ∃ spine : Spine, spine.IsProper ∧ spine.lexemes = lexemes

/-- The nonterminals `MemberExpression`, `NewExpression` and `CallExpression`. -/
inductive Tier where
  | member | new | call

/-- A sequence of lexemes is read as a chain. -/
inductive Reads : Tier → List Lexeme → Callee → Prop where
  | name {text : String} : IsName text → Reads .member [.word text] (.name text)
  | group {tier : Tier} {lexemes : List Lexeme} {callee : Callee} :
      Reads tier lexemes callee → Reads .member (grouped lexemes) callee
  | other {inner : List Lexeme} :
      Closed [] inner → ¬ IsChain inner → Reads .member (grouped inner) (.other inner)
  | select {tier : Tier} {lexemes : List Lexeme} {owner : Callee} {selector : Selector} :
      tier ≠ .new → Reads tier lexemes owner → selector.IsProper →
      Reads tier (lexemes ++ selector.lexemes) (.select owner selector)
  | construct {lexemes inner : List Lexeme} {callee : Callee} {items : List (List Lexeme)} :
      Reads .member lexemes callee → ArgumentList items inner →
      (∀ item ∈ items, IsArgument item) →
      Reads .member (.word "new" :: (lexemes ++ grouped inner)) (.construct callee items)
  | call {tier : Tier} {lexemes inner : List Lexeme} {callee : Callee}
      {items : List (List Lexeme)} :
      tier ≠ .new → Reads tier lexemes callee → ArgumentList items inner →
      (∀ item ∈ items, IsArgument item) →
      Reads .call (lexemes ++ grouped inner) (.call callee items)
  /-- A `new` without arguments is applied to none. -/
  | bare {tier : Tier} {lexemes : List Lexeme} {callee : Callee} :
      tier ≠ .call → Reads tier lexemes callee →
      Reads .new (.word "new" :: lexemes) (.construct callee [])

section Spines

variable {lexemes others rest more : List Lexeme} {spine another : Spine}

theorem not_isName_new : ¬ IsName "new" := by
  rw [IsName]
  decide

variable {base root : Base} {selector : Selector}

theorem Base.split (hbase : base.IsProper) (hroot : root.IsProper)
    (heq : base.lexemes ++ rest = root.lexemes ++ more) : base = root ∧ rest = more := by
  cases base with
  | name text =>
    cases root with
    | name other =>
      cases heq
      exact ⟨rfl, rfl⟩
    | group inner => cases heq
  | group inner =>
    cases root with
    | name text => cases heq
    | group other =>
      obtain ⟨rfl, rfl⟩ := split_grouped hbase hroot heq
      exact ⟨rfl, rfl⟩

theorem Selector.split {selector other : Selector} (hselector : selector.IsProper)
    (hother : other.IsProper) (heq : selector.lexemes ++ rest = other.lexemes ++ more) :
    selector = other ∧ rest = more := by
  cases selector with
  | member name =>
    cases other with
    | member another =>
      cases heq
      exact ⟨rfl, rfl⟩
    | index place => exact absurd (List.cons.inj heq).1 (by decide)
    | template lexemes =>
      obtain ⟨text, tail, rfl⟩ := IsTemplate.exists_literal hother
      cases heq
  | index place =>
    cases other with
    | member another => exact absurd (List.cons.inj heq).1 (by decide)
    | index another =>
      simp only [Selector.lexemes, List.cons_append, List.append_assoc, List.cons.injEq,
        true_and] at heq
      obtain ⟨rfl, -, rfl⟩ := Closed.split hselector hother rfl rfl heq
      exact ⟨rfl, rfl⟩
    | template lexemes =>
      obtain ⟨text, tail, rfl⟩ := IsTemplate.exists_literal hother
      cases heq
  | template lexemes =>
    cases other with
    | member another =>
      obtain ⟨text, tail, rfl⟩ := IsTemplate.exists_literal hselector
      cases heq
    | index another =>
      obtain ⟨text, tail, rfl⟩ := IsTemplate.exists_literal hselector
      cases heq
    | template another =>
      obtain ⟨rfl, rfl⟩ := IsTemplate.split hselector hother heq
      exact ⟨rfl, rfl⟩

theorem Selector.lexemes_ne_nil (hselector : selector.IsProper) : selector.lexemes ≠ [] := by
  cases selector with
  | template lexemes =>
    obtain ⟨text, tail, rfl⟩ := IsTemplate.exists_literal hselector
    exact List.cons_ne_nil _ _
  | _ => exact List.cons_ne_nil _ _

theorem Selector.not_grouped (hselector : selector.IsProper) (inner : List Lexeme) :
    selector.lexemes ++ rest ≠ grouped inner ++ more := by
  intro heq
  cases selector with
  | template lexemes =>
    obtain ⟨text, tail, rfl⟩ := IsTemplate.exists_literal hselector
    cases heq
  | _ => exact absurd (List.cons.inj heq).1 (by decide)

theorem Suffix.split {suffix other : Suffix} (hsuffix : suffix.IsProper) (hother : other.IsProper)
    (heq : suffix.lexemes ++ rest = other.lexemes ++ more) : suffix = other ∧ rest = more := by
  cases suffix with
  | select selector =>
    cases other with
    | select another =>
      obtain ⟨rfl, rfl⟩ := Selector.split hsuffix hother heq
      exact ⟨rfl, rfl⟩
    | arguments inner items => exact (Selector.not_grouped hsuffix inner heq).elim
  | arguments inner items =>
    cases other with
    | select selector => exact (Selector.not_grouped hother inner heq.symm).elim
    | arguments another others =>
      have hinner := hsuffix.1.closed hsuffix.2
      obtain ⟨rfl, rfl⟩ := split_grouped hinner (hother.1.closed hother.2) heq
      rw [hsuffix.1.unique hother.1 hsuffix.2 hother.2]
      exact ⟨rfl, rfl⟩

theorem Suffix.lexemes_ne_nil {suffix : Suffix} (hsuffix : suffix.IsProper) :
    suffix.lexemes ≠ [] := by
  cases suffix with
  | select selector => exact Selector.lexemes_ne_nil hsuffix
  | arguments inner items => exact List.cons_ne_nil _ _

theorem Suffix.flatMap_inj {suffixes others : List Suffix}
    (hsuffixes : ∀ suffix ∈ suffixes, suffix.IsProper)
    (hothers : ∀ suffix ∈ others, suffix.IsProper)
    (heq : suffixes.flatMap Suffix.lexemes = others.flatMap Suffix.lexemes) :
    suffixes = others := by
  induction suffixes generalizing others with
  | nil =>
    cases others with
    | nil => rfl
    | cons other others =>
      have hempty := (List.append_eq_nil_iff.1 heq.symm).1
      exact (Suffix.lexemes_ne_nil (hothers other List.mem_cons_self) hempty).elim
  | cons suffix suffixes ih =>
    cases others with
    | nil =>
      have hempty := (List.append_eq_nil_iff.1 heq).1
      exact (Suffix.lexemes_ne_nil (hsuffixes suffix List.mem_cons_self) hempty).elim
    | cons other others =>
      rw [List.forall_mem_cons] at hsuffixes hothers
      obtain ⟨rfl, hrest⟩ := Suffix.split hsuffixes.1 hothers.1 heq
      rw [ih hsuffixes.2 hothers.2 hrest]

/-- No base starts with `new`. -/
theorem Base.not_new (hbase : base.IsProper) : base.lexemes ++ rest ≠ .word "new" :: more := by
  intro heq
  cases base with
  | name text =>
    cases heq
    exact not_isName_new hbase
  | group inner => cases heq

theorem replicate_new_split {news another : Nat} (hbase : base.IsProper) (hroot : root.IsProper)
    (heq : List.replicate news (Lexeme.word "new") ++ (base.lexemes ++ rest) =
      List.replicate another (.word "new") ++ (root.lexemes ++ more)) :
    news = another ∧ base.lexemes ++ rest = root.lexemes ++ more := by
  induction news generalizing another with
  | zero =>
    cases another with
    | zero => exact ⟨rfl, heq⟩
    | succ another => exact (Base.not_new hbase heq).elim
  | succ news ih =>
    cases another with
    | zero => exact (Base.not_new hroot heq.symm).elim
    | succ another =>
      obtain ⟨rfl, htail⟩ := ih (List.cons.inj heq).2
      exact ⟨rfl, htail⟩

/-- The outer form of a chain can be told from its lexemes. -/
theorem Spine.IsProper.lexemes_inj (hspine : spine.IsProper) (hanother : another.IsProper)
    (heq : spine.lexemes = another.lexemes) : spine = another := by
  obtain ⟨hnews, hrest⟩ := replicate_new_split hspine.base hanother.base heq
  obtain ⟨hbase, htail⟩ := Base.split hspine.base hanother.base hrest
  have hsuffixes := Suffix.flatMap_inj hspine.suffixes hanother.suffixes htail
  cases spine
  cases another
  rw [Spine.mk.injEq]
  exact ⟨hnews, hbase, hsuffixes⟩

end Spines

section Closed

variable {stops lexemes : List Lexeme}

theorem Selector.closed {selector : Selector} (hselector : selector.IsProper)
    (hstops : ∀ lexeme ∈ stops, lexeme = .comma) : Closed stops selector.lexemes := by
  cases selector with
  | member name =>
    refine .cons rfl (fun hmem => ?_) (.single rfl fun hmem => ?_)
    · exact absurd (hstops _ hmem) (by decide)
    · cases hstops _ hmem
  | index place => exact .group rfl rfl hselector
  | template lexemes =>
    refine IsTemplate.closed hselector fun text hmem => ?_
    cases hstops _ hmem

theorem Suffix.closed {suffix : Suffix} (hsuffix : suffix.IsProper)
    (hstops : ∀ lexeme ∈ stops, lexeme = .comma) : Closed stops suffix.lexemes := by
  cases suffix with
  | select selector => exact Selector.closed hsuffix hstops
  | arguments inner items => exact closed_grouped (hsuffix.1.closed hsuffix.2)

theorem Base.closed {base : Base} (hbase : base.IsProper)
    (hstops : ∀ lexeme ∈ stops, lexeme = .comma) : Closed stops base.lexemes := by
  cases base with
  | name text =>
    refine .single rfl fun hmem => ?_
    cases hstops _ hmem
  | group inner => exact closed_grouped hbase

/-- A chain has no comma outside of brackets. -/
theorem IsChain.closed (hchain : IsChain lexemes) (hstops : ∀ lexeme ∈ stops, lexeme = .comma) :
    Closed stops lexemes := by
  obtain ⟨spine, hproper, rfl⟩ := hchain
  have hnews : Closed stops (List.replicate spine.news (.word "new")) := by
    rw [← List.flatMap_singleton' (List.replicate _ _)]
    refine Closed.flatMap fun lexeme hlexeme => ?_
    rw [List.eq_of_mem_replicate hlexeme]
    refine .single rfl fun hmem => ?_
    cases hstops _ hmem
  have hsuffixes : Closed stops (spine.suffixes.flatMap Suffix.lexemes) :=
    Closed.flatMap fun suffix hmem => Suffix.closed (hproper.suffixes suffix hmem) hstops
  exact hnews.append ((Base.closed hproper.base hstops).append hsuffixes)

end Closed

namespace Spine

variable {spine : Spine}

/-- A chain with one more suffix. -/
def push (spine : Spine) (suffix : Suffix) : Spine :=
  { spine with suffixes := spine.suffixes ++ [suffix] }

/-- A chain behind one more `new`. -/
def behindNew (spine : Spine) : Spine :=
  { spine with news := spine.news + 1 }

theorem lexemes_push (spine : Spine) (suffix : Suffix) :
    (spine.push suffix).lexemes = spine.lexemes ++ suffix.lexemes := by
  simp [push, lexemes]

theorem lexemes_behindNew (spine : Spine) :
    spine.behindNew.lexemes = .word "new" :: spine.lexemes := by
  rw [behindNew, lexemes, List.replicate_succ, List.cons_append]
  rfl

/-- How many suffixes are arguments. -/
def argumentCount (spine : Spine) : Nat :=
  spine.suffixes.countP Suffix.isArguments

theorem argumentCount_push_select (spine : Spine) (selector : Selector) :
    (spine.push (.select selector)).argumentCount = spine.argumentCount := by
  rw [argumentCount, push, List.countP_append]
  rfl

theorem argumentCount_push_arguments (spine : Spine) (inner : List Lexeme)
    (items : List (List Lexeme)) :
    (spine.push (.arguments inner items)).argumentCount = spine.argumentCount + 1 := by
  rw [argumentCount, push, List.countP_append]
  rfl

theorem argumentCount_behindNew (spine : Spine) :
    spine.behindNew.argumentCount = spine.argumentCount :=
  rfl

theorem IsProper.push (hspine : spine.IsProper) {suffix : Suffix} (hsuffix : suffix.IsProper) :
    (spine.push suffix).IsProper := by
  refine ⟨hspine.base, fun other hmem => ?_⟩
  obtain hmem | hmem := List.mem_append.1 hmem
  · exact hspine.suffixes other hmem
  · cases List.mem_singleton.1 hmem
    exact hsuffix

theorem IsProper.behindNew (hspine : spine.IsProper) : spine.behindNew.IsProper :=
  ⟨hspine.base, hspine.suffixes⟩

end Spine

/-- What a chain is read as: arguments belong to the last `new` that has none yet, and make a
call where there is none. -/
def attach : Nat → Callee → List Suffix → Callee
  | news, callee, [] => Nat.iterate (construct · []) news callee
  | news, callee, .select selector :: rest => attach news (callee.select selector) rest
  | 0, callee, .arguments _ items :: rest => attach 0 (callee.call items) rest
  | news + 1, callee, .arguments _ items :: rest => attach news (callee.construct items) rest

namespace Tier

/-- What may still be attached to a chain of a tier: a call leaves no `new` in front of it
without arguments, and to a `new` without arguments nothing can be attached. -/
def Leaves : Tier → Nat → List Suffix → Prop
  | .member, _, _ => True
  | .new, _, rest => rest = []
  | .call, news, _ => news = 0

/-- How many arguments there are for each `new`. -/
def Balances : Tier → Spine → Prop
  | .member, spine => spine.argumentCount = spine.news
  | .new, spine => spine.argumentCount < spine.news
  | .call, spine => spine.news < spine.argumentCount

variable {tier : Tier} {spine : Spine}

theorem leaves_nothing (tier : Tier) : tier.Leaves 0 [] := by
  cases tier with
  | member => exact trivial
  | new => rfl
  | call => rfl

theorem Leaves.cons {news : Nat} {rest : List Suffix} (hleaves : tier.Leaves news rest)
    (htier : tier ≠ .new) (suffix : Suffix) : tier.Leaves news (suffix :: rest) := by
  cases tier with
  | member => exact trivial
  | new => exact absurd rfl htier
  | call => exact hleaves

theorem Balances.le (hbalances : tier.Balances spine) (htier : tier ≠ .new) :
    spine.news ≤ spine.argumentCount := by
  cases tier with
  | member => exact Nat.le_of_eq (Eq.symm hbalances)
  | new => exact absurd rfl htier
  | call => exact Nat.le_of_lt hbalances

theorem Balances.ge (hbalances : tier.Balances spine) (htier : tier ≠ .call) :
    spine.argumentCount ≤ spine.news := by
  cases tier with
  | member => exact Nat.le_of_eq hbalances
  | new => exact Nat.le_of_lt hbalances
  | call => exact absurd rfl htier

end Tier

/-- What the base of a chain is read as. -/
def Base.Reads : Base → Callee → Prop
  | .name text, root => root = .name text
  | .group inner, root =>
    (root = .other inner ∧ ¬ IsChain inner) ∨ ∃ tier, Callee.Reads tier inner root

/-- A chain is read from its outer form and what its base is read as. -/
structure Outline (spine : Spine) (root : Callee) (tier : Tier) (lexemes : List Lexeme)
    (callee : Callee) : Prop where
  isProper : spine.IsProper
  lexemes_eq : spine.lexemes = lexemes
  reads : spine.base.Reads root
  balances : tier.Balances spine
  attach_eq : ∀ news rest, tier.Leaves news rest →
    attach (spine.news + news) root (spine.suffixes ++ rest) = attach news callee rest

namespace Outline

variable {spine : Spine} {tier : Tier} {lexemes : List Lexeme} {root callee : Callee}

/-- A chain that is nothing but its base. -/
theorem base {base : Base} (hproper : base.IsProper) (hreads : base.Reads root) :
    Outline ⟨0, base, []⟩ root .member base.lexemes root where
  isProper := ⟨hproper, List.forall_mem_nil _⟩
  lexemes_eq := List.append_nil _
  reads := hreads
  balances := rfl
  attach_eq news rest _ := by rw [Nat.zero_add, List.nil_append]

theorem select (houtline : Outline spine root tier lexemes callee) (htier : tier ≠ .new)
    {selector : Selector} (hselector : selector.IsProper) :
    Outline (spine.push (.select selector)) root tier (lexemes ++ selector.lexemes)
      (.select callee selector) where
  isProper := houtline.isProper.push hselector
  lexemes_eq := by
    rw [Spine.lexemes_push, houtline.lexemes_eq]
    rfl
  reads := houtline.reads
  balances := by
    have hbalances := houtline.balances
    cases tier <;>
      (rw [Tier.Balances, Spine.argumentCount_push_select]
       exact hbalances)
  attach_eq news rest hleaves := by
    rw [Spine.push, List.append_assoc, List.singleton_append,
      houtline.attach_eq _ _ (hleaves.cons htier _), attach]

theorem construct (houtline : Outline spine root .member lexemes callee) {inner : List Lexeme}
    {items : List (List Lexeme)} (hproper : (Suffix.arguments inner items).IsProper) :
    Outline (spine.push (.arguments inner items)).behindNew root .member
      (.word "new" :: (lexemes ++ grouped inner)) (.construct callee items) where
  isProper := (houtline.isProper.push hproper).behindNew
  lexemes_eq := by
    rw [Spine.lexemes_behindNew, Spine.lexemes_push, houtline.lexemes_eq]
    rfl
  reads := houtline.reads
  balances := by
    have hbalances : spine.argumentCount = spine.news := houtline.balances
    rw [Tier.Balances, Spine.argumentCount_behindNew, Spine.argumentCount_push_arguments, hbalances]
    rfl
  attach_eq news rest _ := by
    rw [Spine.behindNew, Spine.push, List.append_assoc, List.singleton_append, Nat.add_assoc,
      Nat.add_comm 1 news, houtline.attach_eq _ _ trivial, attach]

theorem call (houtline : Outline spine root tier lexemes callee) (htier : tier ≠ .new)
    {inner : List Lexeme} {items : List (List Lexeme)}
    (hproper : (Suffix.arguments inner items).IsProper) :
    Outline (spine.push (.arguments inner items)) root .call (lexemes ++ grouped inner)
      (.call callee items) where
  isProper := houtline.isProper.push hproper
  lexemes_eq := by
    rw [Spine.lexemes_push, houtline.lexemes_eq]
    rfl
  reads := houtline.reads
  balances := by
    rw [Tier.Balances, Spine.argumentCount_push_arguments]
    exact Nat.lt_succ_of_le (houtline.balances.le htier)
  attach_eq news rest hleaves := by
    cases hleaves
    have hnone : tier.Leaves 0 (.arguments inner items :: rest) := by
      cases tier with
      | member => exact trivial
      | new => exact absurd rfl htier
      | call => rfl
    rw [Spine.push, List.append_assoc, List.singleton_append, houtline.attach_eq _ _ hnone, attach]

theorem bare (houtline : Outline spine root tier lexemes callee) (htier : tier ≠ .call) :
    Outline spine.behindNew root .new (.word "new" :: lexemes) (.construct callee []) where
  isProper := houtline.isProper.behindNew
  lexemes_eq := by rw [Spine.lexemes_behindNew, houtline.lexemes_eq]
  reads := houtline.reads
  balances := by
    rw [Tier.Balances, Spine.argumentCount_behindNew]
    exact Nat.lt_succ_of_le (houtline.balances.ge htier)
  attach_eq news rest hleaves := by
    cases hleaves
    have hnone : tier.Leaves (news + 1) [] := by
      cases tier with
      | member => exact trivial
      | new => rfl
      | call => exact absurd rfl htier
    rw [Spine.behindNew, Nat.add_assoc, Nat.add_comm 1 news, houtline.attach_eq _ _ hnone, attach,
      attach, Function.iterate_succ_apply]

/-- A chain is what its suffixes make of its base. -/
theorem callee_eq (houtline : Outline spine root tier lexemes callee) :
    callee = attach spine.news root spine.suffixes := by
  have hattach := houtline.attach_eq 0 [] tier.leaves_nothing
  rw [Nat.add_zero, List.append_nil] at hattach
  exact hattach.symm

end Outline

section Reads

variable {tier another : Tier} {lexemes : List Lexeme} {callee other : Callee}

theorem Reads.exists_outline (hreads : Reads tier lexemes callee) :
    ∃ spine root, Outline spine root tier lexemes callee := by
  induction hreads with
  | @name text hname => exact ⟨_, _, @Outline.base _ (.name text) hname rfl⟩
  | @group tier lexemes callee hreads ih =>
    obtain ⟨spine, root, houtline⟩ := ih
    have hclosed : Closed [] lexemes :=
      IsChain.closed ⟨spine, houtline.isProper, houtline.lexemes_eq⟩ (List.forall_mem_nil _)
    exact ⟨_, _, @Outline.base _ (.group lexemes) hclosed (.inr ⟨tier, hreads⟩)⟩
  | @other inner hclosed hchain =>
    exact ⟨_, _, @Outline.base _ (.group inner) hclosed (.inl ⟨rfl, hchain⟩)⟩
  | select htier _ hselector ih =>
    obtain ⟨spine, root, houtline⟩ := ih
    exact ⟨_, _, houtline.select htier hselector⟩
  | construct _ harguments hitems ih =>
    obtain ⟨spine, root, houtline⟩ := ih
    exact ⟨_, _, houtline.construct ⟨harguments, hitems⟩⟩
  | call htier _ harguments hitems ih =>
    obtain ⟨spine, root, houtline⟩ := ih
    exact ⟨_, _, houtline.call htier ⟨harguments, hitems⟩⟩
  | bare htier _ ih =>
    obtain ⟨spine, root, houtline⟩ := ih
    exact ⟨_, _, houtline.bare htier⟩

theorem Reads.isChain (hreads : Reads tier lexemes callee) : IsChain lexemes := by
  obtain ⟨spine, _, houtline⟩ := hreads.exists_outline
  exact ⟨spine, houtline.isProper, houtline.lexemes_eq⟩

theorem Reads.closed (hreads : Reads tier lexemes callee) : Closed [] lexemes :=
  hreads.isChain.closed (List.forall_mem_nil _)

/-- The tier of a chain can be told from its outer form. -/
theorem Reads.balances {spine : Spine} (hreads : Reads tier spine.lexemes callee)
    (hproper : spine.IsProper) : tier.Balances spine := by
  obtain ⟨_, _, houtline⟩ := hreads.exists_outline
  cases hproper.lexemes_inj houtline.isProper houtline.lexemes_eq.symm
  exact houtline.balances

variable {base : Base} {root : Callee} {spine : Spine} {suffixes : List Suffix}

/-- The base of a chain is read in one way if what stands in its parentheses is. -/
theorem Base.Reads.unique {source : Callee} (hroot : base.Reads root) (hsource : base.Reads source)
    (hinner : ∀ inner, base = .group inner → ∀ tier another callee other,
      Callee.Reads tier inner callee → Callee.Reads another inner other → callee = other) :
    root = source := by
  cases base with
  | name text => exact hroot.trans hsource.symm
  | group inner =>
    obtain ⟨rfl, hchain⟩ | ⟨tier, hreads⟩ := hroot
    · obtain ⟨rfl, -⟩ | ⟨another, hother⟩ := hsource
      · rfl
      · exact absurd hother.isChain hchain
    · obtain ⟨rfl, hchain⟩ | ⟨another, hother⟩ := hsource
      · exact absurd hreads.isChain hchain
      · exact hinner inner rfl tier another root source hreads hother

theorem Spine.length_group_lt {inner : List Lexeme} (hbase : spine.base = .group inner) :
    inner.length < spine.lexemes.length := by
  simp only [Spine.lexemes, hbase, Base.lexemes, grouped, List.length_append, List.length_cons]
  omega

/-- Lexemes are read as at most one chain. -/
theorem Reads.unique (hreads : Reads tier lexemes callee) (hother : Reads another lexemes other) :
    callee = other := by
  -- Only the inside of the parentheses at the start is read again.
  induction hlength : lexemes.length using Nat.strongRecOn
    generalizing tier another lexemes callee other with
  | ind length ih =>
    obtain ⟨spine, root, houtline⟩ := hreads.exists_outline
    obtain ⟨_, source, hsketch⟩ := hother.exists_outline
    cases houtline.isProper.lexemes_inj hsketch.isProper
      (houtline.lexemes_eq.trans hsketch.lexemes_eq.symm)
    have hsame : root = source := by
      refine houtline.reads.unique hsketch.reads
        fun inner hbase tier another callee other hfirst hsecond => ?_
      have hlt := Spine.length_group_lt hbase
      rw [houtline.lexemes_eq, hlength] at hlt
      exact ih inner.length hlt hfirst hsecond rfl
    rw [houtline.callee_eq, hsketch.callee_eq, hsame]

theorem Base.Reads.member (hroot : base.Reads root) (hproper : base.IsProper) :
    Callee.Reads .member base.lexemes root := by
  cases base with
  | name text =>
    cases hroot
    exact .name hproper
  | group inner =>
    obtain ⟨rfl, hchain⟩ | ⟨tier, hreads⟩ := hroot
    · exact .other hproper hchain
    · exact .group hreads

theorem Reads.exists_call (hreads : Reads .call lexemes callee)
    (hproper : ∀ suffix ∈ suffixes, suffix.IsProper) :
    ∃ other, Reads .call (lexemes ++ suffixes.flatMap Suffix.lexemes) other := by
  induction suffixes generalizing lexemes callee with
  | nil =>
    rw [List.flatMap_nil, List.append_nil]
    exact ⟨callee, hreads⟩
  | cons suffix suffixes ih =>
    rw [List.forall_mem_cons] at hproper
    rw [List.flatMap_cons, ← List.append_assoc]
    cases suffix with
    | select selector => exact ih (hreads.select Tier.noConfusion hproper.1) hproper.2
    | arguments inner items =>
      exact ih (hreads.call Tier.noConfusion hproper.1.1 hproper.1.2) hproper.2

theorem Reads.exists_behind (hreads : Reads .member lexemes callee)
    (hproper : ∀ suffix ∈ suffixes, suffix.IsProper) (news : Nat) :
    ∃ tier other, Reads tier (List.replicate news (.word "new") ++
      (lexemes ++ suffixes.flatMap Suffix.lexemes)) other := by
  induction suffixes generalizing lexemes callee news with
  | nil =>
    rw [List.flatMap_nil, List.append_nil]
    suffices hnews : ∃ tier other, tier ≠ .call ∧
        Reads tier (List.replicate news (.word "new") ++ lexemes) other by
      obtain ⟨tier, other, -, hother⟩ := hnews
      exact ⟨tier, other, hother⟩
    induction news with
    | zero => exact ⟨_, callee, Tier.noConfusion, hreads⟩
    | succ news ih =>
      obtain ⟨tier, other, htier, hother⟩ := ih
      exact ⟨_, _, Tier.noConfusion, hother.bare htier⟩
  | cons suffix suffixes ih =>
    rw [List.forall_mem_cons] at hproper
    rw [List.flatMap_cons, ← List.append_assoc lexemes]
    cases suffix with
    | select selector => exact ih (hreads.select Tier.noConfusion hproper.1) hproper.2 news
    | arguments inner items =>
      cases news with
      | zero =>
        obtain ⟨other, hother⟩ :=
          (hreads.call Tier.noConfusion hproper.1.1 hproper.1.2).exists_call hproper.2
        exact ⟨_, other, hother⟩
      | succ news =>
        have hconstruct := ih (hreads.construct hproper.1.1 hproper.1.2) hproper.2 news
        rw [List.replicate_succ', List.append_assoc]
        exact hconstruct

/-- Whatever has the outer form of a chain is read as a chain if its base is. -/
theorem Spine.IsProper.exists_reads (hproper : spine.IsProper) (hroot : spine.base.Reads root) :
    ∃ tier callee, Callee.Reads tier spine.lexemes callee :=
  (hroot.member hproper.base).exists_behind hproper.suffixes spine.news

end Reads

end Callee

end Debundle
