import Debundle.Module.Table
import Debundle.Proofs.Script.Mirror
import Debundle.Proofs.Script.Performance

/-!
# One generator for all modules

A single generator prints every statement of every module, and goes on after a failure.  Its
flag is as it was after each call, so no call can be told from the first call on a fresh
generator, and the table of modules is the one that is built without any state.
-/

namespace Debundle

open Procedure

namespace Performance

variable {node : Value}

def verbatim : Performance node (·.style.verbatim node) :=
  .plain

def asExpression (strength : Nat) (level : Int) :
    Performance node (·.asExpression strength level) :=
  ((phrase? level).elim (verbatim.map .text) fun phrase =>
    phrase.map fun phrase => phrase.inPlace strength).congr fun printer => by
      rw [Printer.asExpression]
      cases printer.phrase? level <;> rfl

def asStatement (level : Int) :
    Performance node (·.asStatement level) :=
  ((statement? level).elim ((phrase? level).elim verbatim fun phrase =>
    phrase.bind fun phrase =>
      (plain : Performance node fun _ => expressionStatement phrase.content))
    fun text => text).congr fun printer => by
      rw [Printer.asStatement]
      cases printer.statement? level <;> cases printer.phrase? level <;> rfl

def standalone : Performance node (·.standalone) :=
  ((statement? 0).elim (.asExpression Precedence.sequence 0) fun text =>
    text.map Value.text).congr fun printer => by
      rw [Printer.standalone]
      cases printer.statement? 0 <;> rfl

end Performance

namespace Generator

variable {node : Value} {generator : Generator node} {inner : Bool → Part node → Rendition}

def rendering (generator : Generator node) : Rendering where
  statement level := (Performance.asStatement level).steps generator
  expression strength level := (Performance.asExpression strength level).steps generator

theorem rendering_yields
    (hinner : ∀ part, (generator.inner part).Yields fun flag => inner flag part) :
    generator.rendering.Yields fun flag =>
      (⟨generator.style, flag, inner⟩ : Printer node).rendition where
  statement level := (Performance.asStatement level).outcome_eq hinner
  expression strength level := (Performance.asExpression strength level).outcome_eq hinner

end Generator

namespace Value

/-- What the generator does to print a value inside another. -/
def rendering (style : Style) (value : Value) : Rendering :=
  let generator : Generator value := { style, inner := fun part => part.value.rendering style }
  generator.rendering
termination_by value.size
decreasing_by exact part.smaller

def generator (style : Style) (value : Value) : Generator value where
  style := style
  inner := fun part => part.value.rendering style

/-- A call of the generator: it prints a statement or an expression that stands alone. -/
def generate (style : Style) (value : Value) : Procedure Fault Bool Value :=
  Performance.standalone.steps (value.generator style)

theorem rendering_yields (style : Style) (value : Value) :
    (value.rendering style).Yields fun flag => value.print style flag := by
  -- The parts of a node are smaller than the node, and the rules ask for no more.
  induction hsize : value.size using Nat.strongRecOn generalizing value with
  | ind size ih =>
    have hinner : ∀ part : Part value, (part.value.rendering style).Yields
        fun flag => part.value.print style flag := fun part =>
      ih part.value.size (hsize ▸ part.smaller) part.value rfl
    have hrendering := (value.generator style).rendering_yields hinner
    rw [rendering]
    simp only [print_eq]
    exact hrendering

theorem outcome_generate (style : Style) (value : Value) (flag : Bool) :
    outcome (value.generate style) flag = ((value.printerIn style flag).standalone, flag) :=
  Performance.standalone.outcome_eq (fun part => part.value.rendering_yields style) flag

end Value

/-- Calls of one generator, each with how it ended and the flag that it left.  A call that
fails does not keep the next one from being made. -/
def generations (style : Style) : Bool → List Value → List (Except Fault Value × Bool)
  | _, [] => []
  | flag, value :: rest =>
    let ended := outcome (value.generate style) flag
    ended :: generations style ended.2 rest

theorem generations_eq_map (style : Style) (flag : Bool) (values : List Value) :
    generations style flag values =
      values.map fun value => ((value.printerIn style flag).standalone, flag) := by
  induction values with
  | nil => rfl
  | cons value rest ih => rw [generations, value.outcome_generate, ih, List.map_cons]

/-- The source text of a module, statement by statement from one generator. -/
def generateModule (style : Style) (module : Value) : Procedure Fault Bool Value :=
  if module.isFunctionModule then
    (module.lookup "body").elim (module.generate style) fun body =>
      if body.kind = .blockStatement then do
        let statements ← MonadExcept.ofExcept (body.listAt "body")
        let pieces ← statements.mapM fun statement => statement.value.generate style
        let text ← MonadExcept.ofExcept (joined "\n" pieces)
        return .text text
      else body.generate style
  else module.generate style

theorem outcome_generateModule (style : Style) (module : Value) :
    outcome (generateModule style module) false =
      (renderModule (Value.script style) module, false) := by
  have hgenerate : ∀ value : Value,
      outcome (value.generate style) false = (value.script style, false) := fun value =>
    value.outcome_generate style false
  rw [generateModule, renderModule]
  cases module.isFunctionModule with
  | false => exact hgenerate module
  | true =>
    rw [if_pos rfl]
    cases module.lookup "body" with
    | none => exact hgenerate module
    | some body =>
      by_cases hblock : body.kind = .blockStatement
      · simp only [Option.elim_some, if_pos hblock]
        refine outcome_bind_of_steady (outcome_ofExcept _) fun statements => ?_
        refine outcome_bind_of_steady
          (outcome_mapM_of_steady (fun statement : Part body => hgenerate statement.value) _)
          fun pieces => ?_
        exact outcome_bind_of_steady (outcome_ofExcept _) fun _ => rfl
      · simp only [Option.elim_some, if_neg hblock]
        exact hgenerate body

/-- A named module is renamed, and then printed by the generator.  If that fails, the cause
is noted. -/
def Module.generate (registry : Registry) (style : Style) (named : NamedModule) :
    Procedure Fault Bool Module := do
  let renamed ← MonadExcept.ofExcept (renameModule registry named.body)
  let processed := renamed.module.apply named.body
  let rendered ← observing (generateModule style processed)
  return { toNamedModule := named, processed, tally := renamed.tally, rendered }

theorem Module.outcome_generate (registry : Registry) (style : Style) (named : NamedModule) :
    outcome (Module.generate registry style named) false =
      (Module.ofNamed registry (Value.script style) named, false) := by
  refine outcome_bind_of_steady (outcome_ofExcept _) fun renamed => ?_
  exact outcome_bind_of_ok (outcome_observing (outcome_generateModule style _))

/-- The table of the modules in a wrapper call, all of them printed by one generator. -/
def ModuleTable.generate (style : Style) (wrapper : Value) :
    Procedure Fault Bool ModuleTable := do
  let array ← MonadExcept.ofExcept wrapper.moduleArray
  let slots ← MonadExcept.ofExcept array.elements
  let names ← MonadExcept.ofExcept (nameModules {} slots.zipIdx)
  let modules ← names.2.mapM (Module.generate names.1 style)
  return { slots, registry := names.1, modules }

theorem ModuleTable.outcome_generate (style : Style) (wrapper : Value) :
    outcome (ModuleTable.generate style wrapper) false =
      (ModuleTable.build (Value.script style) wrapper, false) := by
  refine outcome_bind_of_steady (outcome_ofExcept _) fun array => ?_
  refine outcome_bind_of_steady (outcome_ofExcept _) fun slots => ?_
  refine outcome_bind_of_steady (outcome_ofExcept _) fun names => ?_
  refine outcome_bind_of_steady (outcome_mapM_of_steady (fun named => ?_) names.2) fun _ => rfl
  exact Module.outcome_generate names.1 style named

/-- Whatever calls one generator gets, and whichever of them fail, each ends as it does on a
generator of its own and leaves the flag as it found it.  On a fresh generator a call gives the
source text of its value, and so the table that one generator prints is the table of modules
that are printed one by one. -/
theorem generator_keeps_no_trace (style : Style) :
    (∀ flag values, generations style flag values =
      values.map fun value => ((outcome (value.generate style) flag).1, flag)) ∧
    (∀ values, generations style false values =
      values.map fun value => (value.script style, false)) ∧
    ∀ wrapper, outcome (ModuleTable.generate style wrapper) false =
      (ModuleTable.build (Value.script style) wrapper, false) := by
  refine ⟨fun flag values => ?_, generations_eq_map style false, ModuleTable.outcome_generate style⟩
  simp only [generations_eq_map, Value.outcome_generate]

end Debundle
