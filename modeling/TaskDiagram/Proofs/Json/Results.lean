import TaskDiagram.Json.Fields

/-! # What readers return

A property of every value that a reader can return, from whatever it reads it. Such a property
passes through the combinators that records are built with, so it is proved of a record from what
is known of its fields.
-/

namespace TaskDiagram

variable {α β : Type} {P : α → Prop} {Q : β → Prop}

theorem Except.of_map_eq_ok {ε : Type} {x : Except ε α} {f : α → β} {b : β}
    (h : x.map f = .ok b) : ∃ a, x = .ok a ∧ f a = b := by
  cases x with
  | error e => cases h
  | ok a => exact ⟨a, rfl, Except.ok.inj h⟩

/-- What succeeds in two parts has succeeded in each. -/
theorem Except.of_bind_eq_ok {ε : Type} {x : Except ε α} {f : α → Except ε β} {b : β}
    (h : x >>= f = .ok b) : ∃ a, x = .ok a ∧ f a = .ok b := by
  cases x with
  | error e => cases h
  | ok a => exact ⟨a, rfl, h⟩

theorem Except.of_mapError_eq_ok {ε ε' : Type} {x : Except ε α} {f : ε → ε'} {a : α}
    (h : x.mapError f = .ok a) : x = .ok a := by
  cases x with
  | error e => cases h
  | ok b => exact congrArg Except.ok (Except.ok.inj h)

/-- Going through a list succeeds when it does at every item, and fails as it does at one. -/
theorem Except.mapM_spec {ε : Type} (f : α → Except ε β) (xs : List α) :
    match xs.mapM f with
    | .ok _ => ∀ x ∈ xs, ∃ y, f x = .ok y
    | .error e => ∃ x ∈ xs, f x = .error e := by
  induction xs with
  | nil => exact nofun
  | cons x rest ih =>
      rw [List.mapM_cons]
      cases hx : f x with
      | error e => exact ⟨x, List.mem_cons_self, hx⟩
      | ok y =>
          cases hrest : rest.mapM f with
          | error e =>
              rw [hrest] at ih
              obtain ⟨other, hother, he⟩ := ih
              exact ⟨other, List.mem_cons_of_mem _ hother, he⟩
          | ok ys =>
              rw [hrest] at ih
              exact List.forall_mem_cons.mpr ⟨⟨y, hx⟩, ih⟩

/-- Every value the decoder returns has the property. -/
def Decode.Yields (decode : Decoder α) (P : α → Prop) : Prop :=
  ∀ ⦃value a⦄, decode value = .ok a → P a

/-- Every value that is read out of entries or out of items has the property. -/
structure Fields.Yields (fields : Fields α) (P : α → Prop) : Prop where
  ofEntries : ∀ ⦃entries a⦄, fields.ofEntries entries = .ok a → P a
  ofItems : ∀ ⦃short index values a rest⦄,
    fields.ofItems short index values = .ok (a, rest) → P a

namespace Decode.Yields

theorem trivial (decode : Decoder α) : Yields decode fun _ => True := fun _ _ _ => True.intro

/-- What is read through a function has the properties of what the function gives. -/
theorem map {decode : Decoder α} (f : α → β) (h : Yields decode P) (hf : ∀ a, P a → Q (f a)) :
    Yields (fun value => (decode value).map f) Q := by
  intro value b hb
  obtain ⟨a, ha, rfl⟩ := Except.of_map_eq_ok hb
  exact hf a (h ha)

/-- A value that may be null is none or has the property. -/
theorem option {decode : Decoder α} (h : Yields decode P) :
    Yields (Decode.option decode) fun o => ∀ a ∈ o, P a := by
  intro value o ho
  unfold Decode.option at ho
  split at ho
  next =>
    cases ho
    exact nofun
  next =>
    obtain ⟨a, ha, rfl⟩ := Except.of_map_eq_ok ho
    intro b hb
    cases hb
    exact h ha

end Decode.Yields

namespace Fields.Yields

theorem trivial (fields : Fields α) : fields.Yields fun _ => True :=
  ⟨fun _ _ _ => True.intro, fun _ _ _ _ _ _ => True.intro⟩

/-- A field yields what its decoder yields, or what it stands for when it is missing. -/
theorem field {name : String} {aliases : List String} {absent : Absent α} {decode : Decoder α}
    (h : Decode.Yields decode P) (hobject : ∀ a ∈ absent.inObject, P a)
    (harray : ∀ a ∈ absent.inArray, P a) : (Fields.field name aliases absent decode).Yields P where
  ofEntries entries a ha := by
    simp only [Fields.field] at ha
    split at ha
    next =>
      split at ha
      next habsent => exact hobject _ (by cases ha; exact habsent)
      next => cases ha
    next value i more _ =>
      split at ha
      next => cases ha
      next b hb =>
        split at ha
        next =>
          cases ha
          exact h hb
        next => cases ha
  ofItems short index values a rest ha := by
    simp only [Fields.field] at ha
    split at ha
    next =>
      split at ha
      next habsent => exact harray _ (by cases ha; exact habsent)
      next => cases ha
    next value values =>
      obtain ⟨b, hb, heq⟩ := Except.of_map_eq_ok ha
      cases heq
      exact h hb

/-- A field that may be left out is none or has the property. -/
theorem optionalAs {name : String} {aliases : List String} {decode : Decoder α}
    (h : Decode.Yields decode P) :
    (Fields.optionalAs name aliases decode).Yields fun o => ∀ a ∈ o, P a :=
  field h.option
    (by
      intro o ho
      cases ho
      exact nofun)
    (by
      intro o ho
      cases ho
      exact nofun)

theorem optional {name : String} {decode : Decoder α} (h : Decode.Yields decode P) :
    (Fields.optional name decode).Yields fun o => ∀ a ∈ o, P a := optionalAs h

theorem defaulted {name : String} {value : α} {decode : Decoder α} (h : Decode.Yields decode P)
    (hvalue : P value) : (Fields.defaulted name value decode).Yields P :=
  field h (fun _ ha => Option.some.inj ha ▸ hvalue) (fun _ ha => Option.some.inj ha ▸ hvalue)

theorem map {fields : Fields α} {f : α → β} (h : fields.Yields P) (hf : ∀ a, P a → Q (f a)) :
    (f <$> fields).Yields Q where
  ofEntries entries b hb := by
    obtain ⟨a, ha, rfl⟩ := Except.of_map_eq_ok (x := fields.ofEntries entries) hb
    exact hf a (h.ofEntries ha)
  ofItems short index values b rest hb := by
    obtain ⟨a, ha, heq⟩ := Except.of_map_eq_ok (x := fields.ofItems short index values) hb
    cases heq
    exact hf a.1 (h.ofItems ha)

/-- A record yields what is made of what its fields yield. -/
theorem seq {f : Fields (α → β)} {fields : Fields α} (hf : f.Yields fun g => ∀ a, P a → Q (g a))
    (h : fields.Yields P) : (f <*> fields).Yields Q where
  ofEntries entries b hb := by
    change (f.app fields).ofEntries entries = .ok b at hb
    simp only [app] at hb
    split at hb
    next g a hg ha =>
      cases hb
      exact hf.ofEntries hg a (h.ofEntries ha)
    all_goals cases hb
  ofItems short index values b rest hb := by
    change (f.app fields).ofItems short index values = .ok (b, rest) at hb
    simp only [app, bind, Except.bind, Pure.pure, Except.pure] at hb
    split at hb
    next => cases hb
    next left hleft =>
      split at hb
      next => cases hb
      next right hright =>
        cases hb
        exact hf.ofItems hleft _ (h.ofItems hright)

end Fields.Yields

/-- A record has the properties of what its fields yield. -/
theorem Decode.Yields.read {fields : Fields α} (name : String) (h : fields.Yields P) :
    Yields (fields.read name) P := by
  intro value a ha
  unfold Fields.read at ha
  split at ha
  next entries =>
    cases hread : fields.ofEntries entries with
    | error e =>
        rw [Fields.entriesOnly, hread] at ha
        cases ha
    | ok b =>
        rw [Fields.entriesOnly, hread] at ha
        cases ha
        exact h.ofEntries hread
  next values =>
    simp only [Fields.readItems, bind, Except.bind] at ha
    split at ha
    next => cases ha
    next left hleft =>
      split at ha
      next =>
        cases ha
        exact h.ofItems hleft
      next => cases ha
  next => cases ha

end TaskDiagram
