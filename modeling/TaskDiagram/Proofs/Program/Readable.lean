import TaskDiagram.Proofs.Json.Results
import TaskDiagram.Proofs.Program.Stored

/-! # Types in programs that are read

Types of controls and events are kept as text in a document, and reading that text disregards
blanks, case and long names. Whatever was read once keeps its meaning when it is written again:
a known type is written under its own name, and any other as the very text it was read from.
-/

namespace TaskDiagram

/-- A type that was read from a text is read from its own text again. -/
theorem ControlType.readable_ofText (s : String) : (ofText s).Readable := by
  have hkept : (ofText s).isKnown = true ∨ ofText s = .other s := by
    unfold ofText
    split <;> simp [isKnown]
  obtain hknown | hother := hkept
  · exact .of_known hknown
  · rw [Readable, hother]
    exact hother

/-- A type of event that was read from a text is read from its own text again. -/
theorem EventType.readable_ofText (s : String) : (ofText s).Readable := by
  have hkept : (ofText s).isKnown = true ∨ ofText s = .other s := by
    unfold ofText
    split <;> simp [isKnown]
  obtain hknown | hother := hkept
  · exact .of_known hknown
  · rw [Readable, hother]
    exact hother

open Decode (Yields)

theorem ControlType.decode_yields : Yields ControlType.decode Readable :=
  Yields.map ofText (.trivial Decode.text) fun s _ => readable_ofText s

theorem EventType.decode_yields : Yields EventType.decode Readable :=
  Yields.map ofText (.trivial Decode.text) fun s _ => readable_ofText s

/-- The type of the event keeps its meaning when it is written as text. -/
def Event.Readable (e : Event) : Prop := ∀ type ∈ e.type, type.Readable

/-- An event that was read keeps its type when it is written. -/
theorem Event.decode_yields : Yields Event.decode Readable := by
  have htype : ((fun type target id => (⟨type, resolveTarget target id⟩ : Event)) <$>
      Fields.optional "event_type" EventType.decode).Yields
        fun g => ∀ target, True → ∀ id, True → (g target id).Readable :=
    .map (.optional EventType.decode_yields) fun type htype target _ id _ => htype
  exact Yields.read "RawEvent" (.seq (.seq htype (.trivial _)) (.trivial _))

/-- Every control in the chain keeps the meaning of its types when it is written. -/
def Control.ReadableChain (cs : List Control) : Prop := ∀ c ∈ cs, c.Readable

/-- Controls that were read keep their types when they are written, by induction on how far the
reader goes down. -/
theorem Control.decodeChain_yields (depth : Nat) :
    Yields (decodeChain depth) ReadableChain := by
  induction depth with
  | zero => exact fun value cs hcs => nomatch hcs
  | succ depth ih =>
      have htype : ((fun type times event otherwise steps (next : Option (List Control)) =>
          (⟨type, times, event, otherwise, steps⟩ : Control) :: next.getD []) <$>
            Fields.optional "control_type" ControlType.decode).Yields
              fun g => ∀ times, True → ∀ event, (∀ e ∈ event, e.Readable) →
                ∀ otherwise, True → ∀ steps, True → ∀ next, (∀ cs ∈ next, ReadableChain cs) →
                ReadableChain (g times event otherwise steps next) := by
        refine .map (.optional ControlType.decode_yields) ?_
        intro type htype times _ event hevent otherwise _ steps _ next hnext c hc
        obtain rfl | hc := List.mem_cons.mp hc
        · exact ⟨htype, hevent⟩
        · cases next with
          | none => cases hc
          | some cs => exact hnext cs rfl c hc
      exact Yields.read "Control" (.seq (.seq (.seq (.seq (.seq htype (.trivial _))
        (.optional Event.decode_yields)) (.trivial _)) (.trivial _)) (.optional ih))

/-- In every program that is read, the types keep their meaning when they are written. -/
theorem Program.decode_yields :
    Yields Program.decode fun p => Control.ReadableChain p.controls := by
  have hcontrols : Yields Control.decode Control.ReadableChain :=
    fun value cs hcs => Control.decodeChain_yields _ hcs
  have hsteps : ((fun steps (controls : Option (List Control)) =>
      (⟨steps, controls.getD []⟩ : Program)) <$> Steps.fields none).Yields
        fun g => ∀ controls, (∀ cs ∈ controls, Control.ReadableChain cs) →
          Control.ReadableChain (g controls).controls := by
    refine .map (.trivial (Steps.fields none)) fun steps _ controls hcs => ?_
    cases controls with
    | none => intro c hc; cases hc
    | some cs => exact hcs cs rfl
  exact Yields.read "Program" (.seq hsteps (.optional hcontrols))

/-- The controls of a program that was read from a document are readable. -/
theorem Program.readable_of_ofDocument {value : Json} {p : Program}
    (h : ofDocument value = .ok p) : ∀ c ∈ p.controls, c.Readable := by
  have hempty : Control.ReadableChain Program.empty.controls := by
    simp [Control.ReadableChain, empty]
  have henvelope : Yields decodeEnvelope fun p => Control.ReadableChain p.controls :=
    Yields.read "TaskDocument" (.defaulted decode_yields hempty)
  unfold ofDocument at h
  split at h
  next => exact henvelope h
  next =>
    split at h
    next =>
      cases h
      exact hempty
    next => exact decode_yields h

end TaskDiagram
