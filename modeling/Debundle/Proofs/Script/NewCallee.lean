import Debundle.Proofs.Script.Callee

/-!
# Parentheses behind `new`

A callee with a call in it has to be put in parentheses, or `new` takes the arguments of the
call.  The printer does so unless the text of the callee starts with a parenthesis, which says
nothing about where that parenthesis is closed.

What is printed is therefore read as the tree that it was printed from unless a callee is a
member of something that starts with parentheses and goes on with a call, and then it is read
as another tree.
-/

namespace Debundle

namespace Callee

/-- Whether the leftmost chain goes through a call. -/
def containsCall : Callee → Bool
  | .call _ _ => true
  | .select owner _ => owner.containsCall
  | _ => false

/-- Whether a chain is printed with a parenthesis in front. -/
def opensGroup : Callee → Bool
  | .other _ => true
  | .select owner _ => owner.opensGroup
  | .call callee _ => callee.opensGroup
  | _ => false

/-- Whether a chain binds less tightly than `new`. -/
def isLoose : Callee → Bool
  | .call _ _ | .select _ (.template _) => true
  | _ => false

/-- Whether a chain is printed in parentheses behind `new`. -/
def isGrouped (callee : Callee) : Bool :=
  callee.isLoose || (callee.containsCall && !callee.opensGroup)

/-- Every `new` whose callee goes through a call has the callee in parentheses. -/
def isSound : Callee → Bool
  | .name _ | .other _ => true
  | .select owner _ => owner.isSound
  | .call callee _ => callee.isSound
  | .construct callee _ => callee.isSound && (!callee.containsCall || callee.isGrouped)

def groupedIf (isGrouped : Bool) (lexemes : List Lexeme) : List Lexeme :=
  if isGrouped then grouped lexemes else lexemes

/-- What a chain is printed as. -/
def lexemes : Callee → List Lexeme
  | .name text => [.word text]
  | .other inner => grouped inner
  | .select owner selector => owner.lexemes ++ selector.lexemes
  | .call callee items => callee.lexemes ++ grouped (separated items)
  | .construct callee items =>
    .word "new" :: (groupedIf callee.isGrouped callee.lexemes ++ grouped (separated items))

def IsProper : Callee → Prop
  | .name text => IsName text
  | .other inner => Closed [] inner ∧ ¬ IsChain inner
  | .select owner selector => owner.IsProper ∧ selector.IsProper
  | .call callee items | .construct callee items =>
    callee.IsProper ∧ ∀ item ∈ items, IsArgument item

section Printed

variable {tier : Tier} {lexemes : List Lexeme} {callee : Callee}

theorem reads_groupedIf (hreads : Reads tier lexemes callee) {isGrouped : Bool}
    (htier : isGrouped = true ∨ tier = .member) :
    Reads .member (groupedIf isGrouped lexemes) callee := by
  cases isGrouped with
  | true => exact .group hreads
  | false =>
    obtain htier | rfl := htier
    · cases htier
    · exact hreads

/-- Where the parentheses stand as they should, a chain is read back. -/
theorem reads_of_isSound (hproper : callee.IsProper) (hsound : callee.isSound = true) :
    Reads (if callee.containsCall then .call else .member) callee.lexemes callee := by
  induction callee with
  | name text => exact .name hproper
  | other inner => exact .other hproper.1 hproper.2
  | select owner selector ih =>
    refine .select ?_ (ih hproper.1 hsound) hproper.2
    split <;> exact Tier.noConfusion
  | call callee items ih =>
    refine .call ?_ (ih hproper.1 hsound) (argumentList_separated items) hproper.2
    split <;> exact Tier.noConfusion
  | construct callee items ih =>
    rw [isSound, Bool.and_eq_true, Bool.or_eq_true, Bool.not_eq_true'] at hsound
    refine .construct (reads_groupedIf (ih hproper.1 hsound.1) ?_) (argumentList_separated items)
      hproper.2
    refine hsound.2.symm.imp_right fun hnone => ?_
    rw [hnone]
    rfl

theorem IsChain.ne_nil (hchain : IsChain lexemes) : lexemes ≠ [] := by
  obtain ⟨⟨news, base, suffixes⟩, -, rfl⟩ := hchain
  cases base <;> simp [Spine.lexemes, Base.lexemes, grouped]

theorem Reads.ne_nil (hreads : Reads tier lexemes callee) : lexemes ≠ [] :=
  hreads.isChain.ne_nil

/-- The outer form that a chain is printed in, with arguments behind each `new`. -/
structure PrintsIn (spine : Spine) (root callee : Callee) : Prop where
  isProper : spine.IsProper
  lexemes_eq : spine.lexemes = callee.lexemes
  reads : spine.base.Reads root
  news_le : spine.news ≤ spine.argumentCount
  news_lt : callee.containsCall = true → spine.news < spine.argumentCount

theorem PrintsIn.isChain {spine : Spine} {root : Callee} (hprints : PrintsIn spine root callee) :
    IsChain callee.lexemes :=
  ⟨spine, hprints.isProper, hprints.lexemes_eq⟩

theorem PrintsIn.exists_reads {spine : Spine} {root : Callee}
    (hprints : PrintsIn spine root callee) : ∃ tier other, Reads tier callee.lexemes other := by
  rw [← hprints.lexemes_eq]
  exact hprints.isProper.exists_reads hprints.reads

/-- The outer form of a chain behind `new`, in parentheses or not. -/
theorem PrintsIn.exists_front {spine : Spine} {root : Callee}
    (hprints : PrintsIn spine root callee) (isGrouped : Bool) :
    ∃ (front : Spine) (source : Callee), front.IsProper ∧
      front.lexemes = groupedIf isGrouped callee.lexemes ∧ front.base.Reads source ∧
      front.news ≤ front.argumentCount := by
  cases isGrouped with
  | false =>
    exact ⟨spine, root, hprints.isProper, hprints.lexemes_eq, hprints.reads, hprints.news_le⟩
  | true =>
    obtain ⟨tier, other, hother⟩ := hprints.exists_reads
    exact ⟨⟨0, .group callee.lexemes, []⟩, other, ⟨hother.closed, List.forall_mem_nil _⟩,
      List.append_nil _, .inr ⟨tier, hother⟩, Nat.le_refl _⟩

theorem exists_printsIn (hproper : callee.IsProper) : ∃ spine root, PrintsIn spine root callee := by
  induction callee with
  | name text =>
    refine ⟨⟨0, .name text, []⟩, .name text, ⟨hproper, List.forall_mem_nil _⟩, rfl, rfl,
      Nat.le_refl _, ?_⟩
    intro hcall
    cases hcall
  | other inner =>
    refine ⟨⟨0, .group inner, []⟩, .other inner, ⟨hproper.1, List.forall_mem_nil _⟩,
      List.append_nil _, .inl ⟨rfl, hproper.2⟩, Nat.le_refl _, ?_⟩
    intro hcall
    cases hcall
  | select owner selector ih =>
    obtain ⟨spine, root, hprints⟩ := ih hproper.1
    refine ⟨spine.push (.select selector), root, hprints.isProper.push hproper.2, ?_,
      hprints.reads, ?_, fun hcall => ?_⟩
    · rw [Spine.lexemes_push, hprints.lexemes_eq]
      rfl
    · rw [Spine.argumentCount_push_select]
      exact hprints.news_le
    · rw [Spine.argumentCount_push_select]
      exact hprints.news_lt hcall
  | call callee items ih =>
    obtain ⟨spine, root, hprints⟩ := ih hproper.1
    have harguments : (Suffix.arguments (separated items) items).IsProper :=
      ⟨argumentList_separated items, hproper.2⟩
    have hlt : spine.news < spine.argumentCount + 1 := Nat.lt_succ_of_le hprints.news_le
    rw [← Spine.argumentCount_push_arguments spine (separated items) items] at hlt
    refine ⟨spine.push (.arguments (separated items) items), root,
      hprints.isProper.push harguments, ?_, hprints.reads, Nat.le_of_lt hlt, fun _ => hlt⟩
    rw [Spine.lexemes_push, hprints.lexemes_eq]
    rfl
  | construct callee items ih =>
    obtain ⟨spine, root, hprints⟩ := ih hproper.1
    -- In parentheses the callee is the base of another form, with no `new` left to count.
    obtain ⟨front, source, hfront, hlexemes, hreads, hle⟩ := hprints.exists_front callee.isGrouped
    have harguments : (Suffix.arguments (separated items) items).IsProper :=
      ⟨argumentList_separated items, hproper.2⟩
    refine ⟨(front.push (.arguments (separated items) items)).behindNew, source,
      (hfront.push harguments).behindNew, ?_, hreads, ?_, fun hcall => ?_⟩
    · rw [Spine.lexemes_behindNew, Spine.lexemes_push, hlexemes]
      rfl
    · rw [Spine.argumentCount_behindNew, Spine.argumentCount_push_arguments]
      exact Nat.succ_le_succ hle
    · cases hcall

theorem IsProper.isChain (hproper : callee.IsProper) : IsChain callee.lexemes := by
  obtain ⟨spine, root, hprints⟩ := exists_printsIn hproper
  exact hprints.isChain

theorem IsProper.closed (hproper : callee.IsProper) : Closed [] callee.lexemes :=
  hproper.isChain.closed (List.forall_mem_nil _)

theorem closed_groupedIf (hclosed : Closed [] lexemes) (isGrouped : Bool) :
    Closed [] (groupedIf isGrouped lexemes) := by
  cases isGrouped with
  | false => exact hclosed
  | true => exact closed_grouped hclosed

/-- Parentheses around a whole chain are closed at its end. -/
theorem grouped_ne_append {inner front back : List Lexeme} (hinner : Closed [] inner)
    (hfront : Closed [] front) (hstart : front ≠ []) (hend : back ≠ []) :
    grouped inner ≠ front ++ back := by
  intro heq
  cases front with
  | nil => exact hstart rfl
  | cons first front =>
    cases back with
    | nil => exact hend rfl
    | cons lexeme back =>
      rw [grouped, List.cons_append, List.cons_append, List.cons.injEq] at heq
      obtain ⟨rfl, heq⟩ := heq
      exact Closed.not_group_append rfl hinner hfront heq

/-- Arguments at the end of a chain are told from the end. -/
theorem split_append_grouped {front back inner other : List Lexeme} (hfront : Closed [] front)
    (hback : Closed [] back) (hinner : Closed [] inner) (hother : Closed [] other)
    (heq : front ++ grouped inner = back ++ grouped other) : front = back := by
  rw [grouped, grouped, ← List.append_assoc, ← List.append_assoc] at heq
  exact (Closed.split_group rfl rfl hfront hback hinner hother heq).1

end Printed

/-! ### What a chain is read from -/

section Inversion

variable {tier : Tier} {lexemes inner : List Lexeme} {owner callee : Callee}
  {selector : Selector} {items : List (List Lexeme)}

theorem Reads.of_select (hreads : Reads tier lexemes (.select owner selector)) :
    (∃ another inner, lexemes = grouped inner ∧ Reads another inner (.select owner selector)) ∨
      ∃ front, lexemes = front ++ selector.lexemes ∧ Reads tier front owner := by
  cases hreads with
  | group hreads => exact .inl ⟨_, _, rfl, hreads⟩
  | select _ hreads _ => exact .inr ⟨_, rfl, hreads⟩

theorem Reads.of_call (hreads : Reads tier lexemes (.call callee items)) :
    (∃ another inner, lexemes = grouped inner ∧ Reads another inner (.call callee items)) ∨
      tier = .call ∧ ∃ another front inner, lexemes = front ++ grouped inner ∧
        Reads another front callee ∧ Closed [] inner := by
  cases hreads with
  | group hreads => exact .inl ⟨_, _, rfl, hreads⟩
  | call _ hreads harguments hitems =>
    exact .inr ⟨rfl, _, _, _, rfl, hreads, harguments.closed hitems⟩

theorem Reads.of_construct
    (hreads : Reads tier (.word "new" :: lexemes) (.construct callee items)) :
    tier = .new ∨ ∃ front inner, lexemes = front ++ grouped inner ∧
      Reads .member front callee ∧ Closed [] inner := by
  generalize hall : Lexeme.word "new" :: lexemes = all at hreads
  cases hreads with
  | group _ => cases hall
  | construct hreads harguments hitems =>
    cases hall
    exact .inr ⟨_, _, rfl, hreads, harguments.closed hitems⟩
  | bare _ _ => exact .inl rfl

/-- What is read from parentheses is read from their inside, unless it is no chain there. -/
theorem Reads.of_grouped (hreads : Reads tier (grouped inner) callee)
    (hinner : Closed [] inner) (hchain : IsChain inner) :
    ∃ another, Reads another inner callee := by
  generalize hall : grouped inner = all at hreads
  cases hreads with
  | name _ => cases hall
  | group hreads =>
    obtain ⟨rfl, -⟩ := @split_grouped _ _ [] [] hinner hreads.closed (congrArg (· ++ []) hall)
    exact ⟨_, hreads⟩
  | other hclosed hother =>
    obtain ⟨rfl, -⟩ := @split_grouped _ _ [] [] hinner hclosed (congrArg (· ++ []) hall)
    exact absurd hchain hother
  | select _ hreads hselector =>
    exact absurd hall (grouped_ne_append hinner hreads.closed hreads.ne_nil
      (Selector.lexemes_ne_nil hselector))
  | construct _ _ _ => cases hall
  | call _ hreads _ _ =>
    exact absurd hall (grouped_ne_append hinner hreads.closed hreads.ne_nil (List.cons_ne_nil _ _))
  | bare _ _ => cases hall

end Inversion

section Sound

variable {tier : Tier} {callee : Callee}

/-- No printed chain is a `new` without arguments. -/
theorem IsProper.tier_ne_new {other : Callee} (hproper : callee.IsProper)
    (hreads : Reads tier callee.lexemes other) : tier ≠ .new := by
  rintro rfl
  obtain ⟨spine, root, hprints⟩ := exists_printsIn hproper
  rw [← hprints.lexemes_eq] at hreads
  have hlt : spine.argumentCount < spine.news := hreads.balances hprints.isProper
  exact absurd hprints.news_le (Nat.not_le_of_lt hlt)

/-- A printed chain with a call in it is none that `new` takes as a whole. -/
theorem IsProper.containsCall_eq_false {other : Callee} (hproper : callee.IsProper)
    (hreads : Reads .member callee.lexemes other) : callee.containsCall = false := by
  obtain ⟨spine, root, hprints⟩ := exists_printsIn hproper
  rw [← hprints.lexemes_eq] at hreads
  have heq : spine.argumentCount = spine.news := hreads.balances hprints.isProper
  rw [Bool.eq_false_iff]
  exact fun hcall => Nat.ne_of_gt (hprints.news_lt hcall) heq

/-- A chain is read back only where the parentheses stand as they should. -/
theorem isSound_of_reads (hproper : callee.IsProper) (hreads : Reads tier callee.lexemes callee) :
    callee.isSound = true := by
  induction callee generalizing tier with
  | name text => rfl
  | other inner => rfl
  | select owner selector ih =>
    obtain ⟨another, inner, hinner, hother⟩ | ⟨front, hfront, howner⟩ := hreads.of_select
    · exact absurd hinner.symm (grouped_ne_append hother.closed hproper.1.closed
        hproper.1.isChain.ne_nil (Selector.lexemes_ne_nil hproper.2))
    · cases List.append_cancel_right hfront
      exact ih hproper.1 howner
  | call callee items ih =>
    obtain ⟨another, inner, hinner, hother⟩ |
      ⟨-, another, front, inner, hfront, hcallee, hinner⟩ := hreads.of_call
    · exact absurd hinner.symm (grouped_ne_append hother.closed hproper.1.closed
        hproper.1.isChain.ne_nil (List.cons_ne_nil _ _))
    · have hseparated := (argumentList_separated items).closed hproper.2
      cases split_append_grouped hproper.1.closed hcallee.closed hseparated hinner hfront
      exact ih hproper.1 hcallee
  | construct callee items ih =>
    obtain htier | ⟨front, inner, hfront, hcallee, hinner⟩ := hreads.of_construct
    · exact absurd htier (hproper.tier_ne_new hreads)
    · have hseparated := (argumentList_separated items).closed hproper.2
      cases split_append_grouped (closed_groupedIf hproper.1.closed _) hcallee.closed
        hseparated hinner hfront
      rw [isSound, Bool.and_eq_true, Bool.or_eq_true, Bool.not_eq_true']
      cases hgrouped : callee.isGrouped with
      | true =>
        rw [hgrouped] at hcallee
        obtain ⟨another, hother⟩ := hcallee.of_grouped hproper.1.closed hproper.1.isChain
        exact ⟨ih hproper.1 hother, .inr rfl⟩
      | false =>
        rw [hgrouped] at hcallee
        exact ⟨ih hproper.1 hcallee, .inl (hproper.1.containsCall_eq_false hcallee)⟩

/-- A printed chain is read as one tree, and that is the chain itself where the parentheses
stand as they should. -/
theorem IsProper.exists_reading (hproper : callee.IsProper) :
    ∃ tree, (∀ other, (∃ tier, Reads tier callee.lexemes other) ↔ other = tree) ∧
      (tree = callee ↔ callee.isSound = true) := by
  obtain ⟨spine, root, hprints⟩ := exists_printsIn hproper
  obtain ⟨tier, tree, hreads⟩ := hprints.exists_reads
  refine ⟨tree, fun other => ⟨?_, ?_⟩, ?_, fun hsound => ?_⟩
  · rintro ⟨another, hother⟩
    exact hother.unique hreads
  · rintro rfl
    exact ⟨tier, hreads⟩
  · rintro rfl
    exact isSound_of_reads hproper hreads
  · exact hreads.unique (reads_of_isSound hproper hsound)

end Sound

end Callee

end Debundle
