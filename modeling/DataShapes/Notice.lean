import DataShapes.Problem

/-!
# Results with notices

A computation of this library gives a result or a problem, and along the way it leaves notices: the
log records of what it did.  Notices stay when the computation fails, and they never influence the
result.

Main definitions:
* `Level`, `Source`, `Notice`: a log record;
* `Noted`: a result with the notices left on the way;
* `Noted.note`, `Noted.fail`, `Noted.ofExcept`: the elementary computations;
* `Noted.onDefinitionProblem`: leave a notice when a shape definition fails.

The lemmas `result_bind` and `result_pure` say that taking the result commutes with composition, so
questions about results can be answered without looking at notices.
-/

namespace DataShapes

universe u v

/-- The severity of a notice. -/
inductive Level where
  | debug
  | info
  | warning
  | error
deriving DecidableEq, Repr

namespace Level

/-- The number of a severity. -/
def number : Level → Int
  | .debug => 10
  | .info => 20
  | .warning => 30
  | .error => 40

/-- The word for a severity. -/
def name : Level → String
  | .debug => "DEBUG"
  | .info => "INFO"
  | .warning => "WARNING"
  | .error => "ERROR"

end Level

/-- The part of the library that leaves a notice. -/
inductive Source where
  | rules
  | registry
  | definition
  | assembler
  | inheritance
  | document
  | stubs
  | exporter
deriving DecidableEq, Repr

/-- The logger name of a part. -/
def Source.name : Source → String
  | .rules => "shape_schema.rules"
  | .registry => "shape_schema.registry"
  | .definition => "shape_schema.definition"
  | .assembler => "shape_schema.builder.assembler"
  | .inheritance => "shape_schema.resolvers.inheritance_resolver"
  | .document => "shape_schema.file_io.definitions_document"
  | .stubs => "shape_schema.file_io.type_stubs"
  | .exporter => "shape_schema.export.run_export"

/-- One log record. -/
structure Notice where
  level : Level
  source : Source
  message : String
deriving DecidableEq, Repr

/-- A result or a problem, with the notices left on the way. -/
structure Noted (α : Type u) where
  result : Except Problem α
  notices : List Notice

namespace Noted

variable {α : Type u} {β : Type v}

/-- Go on after a result; after a problem nothing more happens. -/
def andThen (x : Noted α) (f : α → Noted β) : Noted β :=
  match x.result with
  | .error p => ⟨.error p, x.notices⟩
  | .ok a => ⟨(f a).result, x.notices ++ (f a).notices⟩

instance : Monad Noted where
  pure a := ⟨.ok a, []⟩
  bind := andThen

/-- Leave one notice. -/
def note (level : Level) (source : Source) (message : String) : Noted Unit :=
  ⟨.ok (), [⟨level, source, message⟩]⟩

/-- Stop with a problem. -/
def fail (p : Problem) : Noted α := ⟨.error p, []⟩

/-- A result or problem without notices. -/
def ofExcept (x : Except Problem α) : Noted α := ⟨x, []⟩

instance : MonadLift (Except Problem) Noted := ⟨ofExcept⟩

/-- When a shape definition fails, leave a notice that says so. -/
def onDefinitionProblem (x : Noted α) (source : Source) (describe : Problem → String) : Noted α :=
  match x.result with
  | .error p =>
    if p.isDefinition then ⟨x.result, x.notices ++ [⟨.debug, source, describe p⟩]⟩ else x
  | .ok _ => x

/-! ### Results compose -/

@[simp] theorem result_pure (a : α) : (pure a : Noted α).result = .ok a := rfl

/-- Notices change no results: the second computation goes on with the result of the first. -/
@[simp] theorem result_bind {α β : Type u} (x : Noted α) (f : α → Noted β) :
    (x >>= f).result = x.result.bind fun a => (f a).result := by
  show (andThen x f).result = _
  unfold andThen
  cases x.result <;> rfl

@[simp] theorem result_note (level : Level) (source : Source) (message : String) :
    (note level source message).result = .ok () := rfl

@[simp] theorem result_fail (p : Problem) : (fail p : Noted α).result = .error p := rfl

@[simp] theorem result_ofExcept (x : Except Problem α) : (ofExcept x).result = x := rfl

/-- A notice about a problem does not change it. -/
@[simp] theorem result_onDefinitionProblem (x : Noted α) (source : Source)
    (describe : Problem → String) : (onDefinitionProblem x source describe).result = x.result := by
  unfold onDefinitionProblem
  split
  · split <;> rfl
  · rfl

end Noted

end DataShapes
