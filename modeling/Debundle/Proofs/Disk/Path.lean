import Debundle.Disk.Path
import Mathlib

/-!
# Written paths

A path that was read from a text, or joined with one, is written so that it can be read
back.  What a path leads to from a place is told by how far it climbs above the place and
by what it descends from there.
-/

namespace Debundle.Path

section Pieces

variable {chars piece : List Char}

theorem pieces_ne_nil (chars : List Char) : pieces chars ≠ [] := by
  cases chars with
  | nil => simp [pieces]
  | cons char rest =>
    rw [pieces]
    split
    · simp
    · split <;> simp

theorem pieces_slash (rest : List Char) : pieces ('/' :: rest) = [] :: pieces rest := by
  rw [pieces, if_pos rfl]

theorem pieces_cons {char : Char} (hchar : char ≠ '/') (rest : List Char) :
    ∃ first others, pieces rest = first :: others ∧
      pieces (char :: rest) = (char :: first) :: others := by
  obtain ⟨first, others, hrest⟩ := List.exists_cons_of_ne_nil (pieces_ne_nil rest)
  refine ⟨first, others, hrest, ?_⟩
  rw [pieces, if_neg hchar, hrest]

theorem slash_not_mem_of_mem_pieces (hpiece : piece ∈ pieces chars) : '/' ∉ piece := by
  induction chars generalizing piece with
  | nil =>
    obtain rfl : piece = [] := by simpa [pieces] using hpiece
    simp
  | cons char rest ih =>
    by_cases hchar : char = '/'
    · rw [hchar, pieces_slash, List.mem_cons] at hpiece
      obtain rfl | hrest := hpiece
      · simp
      · exact ih hrest
    · obtain ⟨first, others, hrest, hpieces⟩ := pieces_cons hchar rest
      rw [hpieces, List.mem_cons] at hpiece
      rw [hrest] at ih
      obtain rfl | hothers := hpiece
      · rw [List.mem_cons, not_or]
        exact ⟨Ne.symm hchar, ih List.mem_cons_self⟩
      · exact ih (List.mem_cons_of_mem first hothers)

theorem pieces_append_slash (hpiece : '/' ∉ piece) (rest : List Char) :
    pieces (piece ++ '/' :: rest) = piece :: pieces rest := by
  induction piece with
  | nil => exact pieces_slash rest
  | cons char piece ih =>
    rw [List.mem_cons, not_or] at hpiece
    rw [List.cons_append, pieces, if_neg (Ne.symm hpiece.1), ih hpiece.2]

theorem pieces_of_slash_not_mem (hchars : '/' ∉ chars) : pieces chars = [chars] := by
  induction chars with
  | nil => rfl
  | cons char rest ih =>
    rw [List.mem_cons, not_or] at hchars
    rw [pieces, if_neg (Ne.symm hchars.1), ih hchars.2]

theorem pieces_intercalate {first : List Char} {others : List (List Char)}
    (hparts : ∀ part ∈ first :: others, '/' ∉ part) :
    pieces (['/'].intercalate (first :: others)) = first :: others := by
  induction others generalizing first with
  | nil => simpa using pieces_of_slash_not_mem (hparts first List.mem_cons_self)
  | cons second others ih =>
    rw [List.intercalate_cons_cons, List.append_assoc, List.singleton_append,
      pieces_append_slash (hparts first List.mem_cons_self),
      ih fun part hpart => hparts part (List.mem_cons_of_mem first hpart)]

end Pieces

/-- A step that a path has when it was read from a text. -/
structure IsPlainStep (step : String) : Prop where
  ne_empty : step ≠ ""
  ne_point : step ≠ "."
  slash_not_mem : '/' ∉ step.toList

/-- A path that a text can stand for. -/
structure IsPlain (path : Path) : Prop where
  root_mem : path.root ∈ ["", "/", "//"]
  steps : ∀ step ∈ path.steps, IsPlainStep step

theorem rootOf_mem (chars : List Char) : rootOf chars ∈ ["", "/", "//"] := by
  rw [rootOf]
  split <;> simp

theorem ofText_isPlain (text : String) : (ofText text).IsPlain := by
  refine ⟨rootOf_mem _, fun step hstep => ?_⟩
  simp only [ofText, List.mem_map, List.mem_filter, Bool.and_eq_true, bne_iff_ne] at hstep
  obtain ⟨piece, ⟨hpiece, hne, hpoint⟩, rfl⟩ := hstep
  refine ⟨fun hempty => hne ?_, fun hdot => hpoint ?_, ?_⟩
  · simpa using congrArg String.toList hempty
  · simpa using congrArg String.toList hdot
  · simpa using slash_not_mem_of_mem_pieces hpiece

theorem IsPlain.join {path : Path} (hpath : path.IsPlain) (text : String) :
    (path.join text).IsPlain := by
  have hother := ofText_isPlain text
  rw [Path.join]
  split
  · refine ⟨hpath.root_mem, fun step hstep => ?_⟩
    exact (List.mem_append.1 hstep).elim (hpath.steps step) (hother.steps step)
  · exact hother

/-- Steps are read back behind any number of slashes. -/
theorem filter_pieces_intercalate {first : String} {others : List String}
    (hsteps : ∀ step ∈ first :: others, IsPlainStep step) (slashes : Nat) :
    (((pieces (List.replicate slashes '/' ++ ("/".intercalate (first :: others)).toList)).filter
      fun piece => piece != [] && piece != ['.']).map String.ofList) = first :: others := by
  induction slashes with
  | succ slashes ih =>
    rw [List.replicate_succ, List.cons_append, pieces_slash]
    exact ih
  | zero =>
    have hparts : ∀ part ∈ first.toList :: others.map String.toList, '/' ∉ part := by
      intro part hpart
      rw [← List.map_cons, List.mem_map] at hpart
      obtain ⟨step, hstep, rfl⟩ := hpart
      exact (hsteps step hstep).slash_not_mem
    have hkept : ∀ part ∈ first.toList :: others.map String.toList,
        (part != [] && part != ['.']) = true := by
      intro part hpart
      rw [← List.map_cons, List.mem_map] at hpart
      obtain ⟨step, hstep, rfl⟩ := hpart
      have hplain := hsteps step hstep
      simp only [Bool.and_eq_true, bne_iff_ne, ne_eq, String.toList_eq_nil_iff]
      exact ⟨hplain.ne_empty, fun hpoint => hplain.ne_point (String.toList_injective hpoint)⟩
    have hslash : "/".toList = ['/'] := rfl
    rw [String.toList_intercalate, hslash, List.map_cons, List.replicate_zero, List.nil_append,
      pieces_intercalate hparts, List.filter_eq_self.2 hkept, ← List.map_cons, List.map_map]
    simp

theorem rootOf_slashes {root body : List Char} (hroot : ∀ char ∈ root, char = '/')
    (hbody : body.head? ≠ some '/') : rootOf (root ++ body) = rootOf root := by
  have hfront : body.takeWhile (· == '/') = [] := by
    cases body with
    | nil => rfl
    | cons char rest => exact List.takeWhile_cons_of_neg (by simpa using hbody)
  rw [rootOf, rootOf, List.takeWhile_append_of_pos (by simpa using hroot), hfront, List.append_nil,
    List.takeWhile_eq_self_iff.2 (by simpa using hroot)]

/-- A path that a text can stand for is written as such a text. -/
theorem ofText_toText {path : Path} (hpath : path.IsPlain) : ofText path.toText = path := by
  obtain ⟨root, steps⟩ := path
  have hroot := hpath.root_mem
  simp only [List.mem_cons, List.not_mem_nil, or_false] at hroot
  cases steps with
  | nil => obtain rfl | rfl | rfl := hroot <;> rfl
  | cons first others =>
    obtain ⟨slashes, hslashes, hown⟩ : ∃ slashes, root.toList = List.replicate slashes '/' ∧
        rootOf root.toList = root := by
      obtain rfl | rfl | rfl := hroot
      · exact ⟨0, rfl, rfl⟩
      · exact ⟨1, rfl, rfl⟩
      · exact ⟨2, rfl, rfl⟩
    have hfirst := hpath.steps first List.mem_cons_self
    have hbody : ("/".intercalate (first :: others)).toList.head? ≠ some '/' := by
      have hhead : ("/".intercalate (first :: others)).toList.head? = first.toList.head? := by
        have hne : first.toList ≠ [] := mt String.toList_eq_nil_iff.1 hfirst.ne_empty
        cases others with
        | nil => simp
        | cons second others =>
          rw [String.intercalate_cons_cons, String.toList_append, String.toList_append,
            List.append_assoc, List.head?_append_of_ne_nil _ hne]
      rw [hhead]
      exact fun hslash => hfirst.slash_not_mem (List.mem_of_mem_head? hslash)
    have htext : toText ⟨root, first :: others⟩ = root ++ "/".intercalate (first :: others) := by
      simp [toText]
    rw [htext, ofText, String.toList_append, hslashes,
      filter_pieces_intercalate hpath.steps slashes, ← hslashes,
      rootOf_slashes (by simp [hslashes]) hbody, hown]

/-- A text that does not start with a slash is a relative path. -/
theorem root_ofText {text : String} (hhead : text.toList.head? ≠ some '/') :
    (ofText text).root = "" :=
  @rootOf_slashes [] text.toList (by simp) hhead

/-- A text without a slash is a path of one step. -/
theorem ofText_of_isPlainStep {text : String} (htext : IsPlainStep text) :
    ofText text = { steps := [text] } := by
  have hplain : IsPlain { steps := [text] } := ⟨List.mem_cons_self, by simpa using htext⟩
  have hwritten : toText { steps := [text] } = text := by simp [toText]
  rw [← hwritten, ofText_toText hplain, hwritten]

/-- A path that starts where it is taken from is never absolute. -/
theorem ofText_here (text : String) :
    ofText ("./" ++ text) = { root := "", steps := (ofText text).steps } := by
  have hchars : ("./" ++ text).toList = ['.'] ++ '/' :: text.toList := by simp
  rw [ofText, hchars, pieces_append_slash (by simp)]
  rfl

theorem resolve_append (path : Path) (steps : List String) (current : Location) :
    ({ path with steps := path.steps ++ steps } : Path).resolve current =
      steps.foldl follow (path.resolve current) :=
  List.foldl_append

theorem resolve_join_here (path : Path) (text : String) (current : Location) :
    (path.join ("./" ++ text)).resolve current =
      (ofText text).steps.foldl follow (path.resolve current) := by
  rw [join, ofText_here]
  exact resolve_append path _ current

theorem rdrop_succ (location : Location) (count : Nat) :
    location.rdrop (count + 1) = (location.rdrop count).dropLast := by
  rw [List.rdrop, List.rdrop, List.dropLast_eq_take, List.take_take, List.length_take]
  congr 1
  omega

/-- Where steps lead from any place: so many levels up, and down from there. -/
structure Route where
  climb : Nat
  descent : List String

namespace Route

/-- A step up takes back the last step down, if there is one. -/
def extend (route : Route) (step : String) : Route :=
  if step = parentStep then
    if route.descent = [] then { route with climb := route.climb + 1 }
    else { route with descent := route.descent.dropLast }
  else { route with descent := route.descent ++ [step] }

def ofSteps (steps : List String) : Route :=
  steps.foldl extend ⟨0, []⟩

/-- Goes the route from a place. -/
def apply (route : Route) (location : Location) : Location :=
  location.rdrop route.climb ++ route.descent

theorem apply_extend (route : Route) (location : Location) (step : String) :
    (route.extend step).apply location = follow (route.apply location) step := by
  obtain ⟨climb, descent⟩ := route
  simp only [extend, follow, apply]
  by_cases hstep : step = parentStep
  · rw [if_pos hstep, if_pos hstep]
    by_cases hdescent : descent = []
    · rw [if_pos hdescent, hdescent, List.append_nil, List.append_nil]
      exact rdrop_succ location climb
    · rw [if_neg hdescent, List.dropLast_append_of_ne_nil hdescent]
  · rw [if_neg hstep, if_neg hstep, List.append_assoc]

end Route

theorem foldl_follow (steps : List String) (location : Location) :
    steps.foldl follow location = (Route.ofSteps steps).apply location := by
  induction steps using List.reverseRecOn with
  | nil => simp [Route.ofSteps, Route.apply]
  | append_singleton steps step ih =>
    rw [List.foldl_concat, ih, ← Route.apply_extend, Route.ofSteps, Route.ofSteps,
      List.foldl_concat]

/-- Steps lead from two places to the same one exactly if the places are the same as far as
the steps do not climb. -/
theorem foldl_follow_eq_iff (steps : List String) (location other : Location) :
    steps.foldl follow location = steps.foldl follow other ↔
      location.rdrop (Route.ofSteps steps).climb = other.rdrop (Route.ofSteps steps).climb := by
  rw [foldl_follow, foldl_follow, Route.apply, Route.apply, List.append_left_inj]

end Debundle.Path
