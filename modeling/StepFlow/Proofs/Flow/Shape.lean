import StepFlow.Flow.Wire

/-!
Shapes and their raw forms. A shape that comes out of a check is bounded: fields of objects have no
parts of their own, and what is called basic has none either. A bounded shape is what its raw form
is checked to.
-/
namespace StepFlow.Flow
open Json

/-- An object ends a shape, and its fields have no parts. -/
def Shape.Bounded : Shape → Prop
  | basic type => type.isNested = false
  | object fields => ∀ f ∈ fields, f.type.isNested = false
  | list element => element.Bounded

def OutputBounded (output : Option OutputArg) : Prop :=
  ∀ o, output = some o → o.shape.Bounded

mutual

def Node.Bounded : Node → Prop
  | .code step => OutputBounded step.output
  | .component step => OutputBounded step.output
  | .ifThen _ body => NodesBounded body
  | .elseIf _ body => NodesBounded body
  | .otherwise _ body => NodesBounded body
  | .forEach loop body => OutputBounded loop.binding ∧ NodesBounded body

def NodesBounded : List Node → Prop
  | [] => True
  | node :: nodes => node.Bounded ∧ NodesBounded nodes

end

section
variable {fields : List OutputField} {shape : Shape} {raw : RawShape}

theorem firstNested_none : firstNested fields = none ↔ ∀ f ∈ fields, f.type.isNested = false := by
  simp [firstNested]

theorem check_toRaw (bounded : shape.Bounded) : shape.toRaw.check = .ok shape := by
  induction shape with
  | basic type => cases type <;> first | rfl | cases bounded
  | object fields =>
    simp only [Shape.toRaw, RawShape.check, Option.getD_some, firstNested_none.mpr bounded]
  | list element ih => simp only [Shape.toRaw, RawShape.check, ih bounded]

theorem check_bounded (checked : raw.check = .ok shape) : shape.Bounded := by
  fun_induction RawShape.check raw generalizing shape with
  | case1 => cases checked
  | case2 =>
    rename_i none
    cases checked
    exact firstNested_none.mp none
  | case3 =>
    cases checked
    rfl
  | case4 _ child element inner ih =>
    cases checked
    exact (ih inner : element.Bounded)
  | case5 => cases checked
  | case6 type _ _ notObject notList notListOf =>
    cases checked
    cases type with
    | object => exact (notObject rfl).elim
    | list =>
      cases child : ‹Option RawShape› with
      | none => exact (notList rfl child).elim
      | some inner => exact (notListOf inner rfl child).elim
    | _ => rfl

end

end StepFlow.Flow
