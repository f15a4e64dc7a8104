import TaskDiagram.Program.Basic

/-!
# From a finished draft to a program

A conversation may put the steps of a controlled task at the top or into the control. With a
control of a known type all steps move into it, those already there taking precedence; without one
the steps of the first control fill up the top and the controls are dropped. Blank references are
left out.
-/

namespace TaskDiagram

namespace Reference

/-- No reference where nothing is set. -/
def compact (r : Option Reference) : Option Reference := r.filter (!·.isBlank)

end Reference

namespace Steps

def compact (s : Steps) : Steps :=
  ⟨Reference.compact s.pick, Reference.compact s.processing, Reference.compact s.place⟩

/-- The steps of `s`, those missing taken from `t`. -/
def or (s t : Steps) : Steps :=
  ⟨s.pick.or t.pick, s.processing.or t.processing, s.place.or t.place⟩

end Steps

namespace Event

/-- No event where nothing is set. -/
def compact (e : Event) : Option Event :=
  let e : Event := ⟨e.type, Reference.compact e.findObject⟩
  if e.type.isSome || e.findObject.isSome then some e else none

end Event

namespace Control

def compact (c : Control) : Control :=
  { c with
    event := c.event.bind Event.compact
    otherwise := (c.otherwise.map Steps.compact).filter (!·.isEmpty)
    steps := c.steps.compact }

/-- Whether the type is set and one this library knows. -/
def hasKnownType (c : Control) : Bool := (c.type.map ControlType.isKnown).getD false

end Control

/-- The program a finished draft stands for. -/
def Program.normalize (p : Program) : Program :=
  let top := p.steps.compact
  match p.controls.map Control.compact with
  | [] => ⟨top, []⟩
  | first :: rest =>
      if first.hasKnownType then ⟨.empty, { first with steps := first.steps.or top } :: rest⟩
      else ⟨top.or first.steps, []⟩

end TaskDiagram
