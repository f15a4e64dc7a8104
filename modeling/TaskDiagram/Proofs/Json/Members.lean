import Mathlib.Data.List.Forall2
import Mathlib.Data.Option.Defs
import TaskDiagram.Proofs.Json.Fields
import TaskDiagram.Proofs.Json.Results
import TaskDiagram.Proofs.TextMap

/-! # What records and maps are read from

A record stands as an object or as an array, and a field of it under its key or at its place. What
is read of the field is what is read of the value there. In a map keys may be repeated, and the
last entry of a key counts.
-/

namespace TaskDiagram

variable {α β κ : Type}

namespace Json

/-- The value of a field of a record. -/
def member? (key : String) (place : Nat) : Json → Option Json
  | .obj entries => findValue? key entries
  | .arr items => items[place]?
  | _ => none

/-- The value of the last entry under a key. -/
def lastValue? (key : String) : Json → Option Json
  | .obj entries => findValue? key entries.reverse
  | _ => none

end Json

/-! ## Records -/

namespace Fields

variable {fields : Fields α} {place : Nat} {value : Json} {a : α} {b : β} {name : String}
  {decode : Decoder α}

/-- The fields, of which the first has a place, are read out of a value. -/
def Reads (fields : Fields α) (place : Nat) (a : α) : Json → Prop
  | .obj entries => fields.ofEntries entries = .ok a
  | .arr items => ∃ short rest, fields.ofItems short place (items.drop place) = .ok (a, rest)
  | _ => False

/-- In an array every field takes the item at its place. -/
def Consumes (fields : Fields α) : Prop :=
  ∀ ⦃short place items a rest⦄, fields.ofItems short place items = .ok (a, rest) →
    rest = items.drop fields.count

/-- A field takes one item, or none when it may be missing and the array has ended. -/
theorem consumes_field (name : String) (aliases : List String) (absent : Absent α)
    (decode : Decoder α) : (field name aliases absent decode).Consumes := by
  intro short place items a rest h
  simp only [field] at h
  split at h
  next =>
    split at h
    · cases h
      rfl
    · cases h
  next item items =>
    obtain ⟨b, -, heq⟩ := Except.of_map_eq_ok h
    cases heq
    rfl

theorem consumes_need (name : String) (decode : Decoder α) : (need name decode).Consumes :=
  consumes_field name [] required decode

theorem consumes_defaulted (name : String) (default : α) (decode : Decoder α) :
    (defaulted name default decode).Consumes := consumes_field name [] (orElse default) decode

theorem consumes_optional (name : String) (decode : Decoder α) :
    (optional name decode).Consumes := consumes_field name [] (orElse none) (Decode.option decode)

theorem Consumes.map (h : fields.Consumes) (f : α → β) : (f <$> fields).Consumes := by
  intro short place items b rest hread
  obtain ⟨read, hfields, heq⟩ := Except.of_map_eq_ok (x := fields.ofItems short place items) hread
  cases heq
  exact h hfields

/-- In an array the first field leaves the rest to the second. -/
theorem of_app_ofItems {f : Fields (α → β)} {short : Nat → DecodeError} {items rest : List Json}
    (h : (f <*> fields).ofItems short place items = .ok (b, rest)) :
    ∃ g a between, f.ofItems short place items = .ok (g, between) ∧
      fields.ofItems short (place + f.count) between = .ok (a, rest) ∧ g a = b := by
  obtain ⟨⟨g, between⟩, hf, h⟩ := Except.of_bind_eq_ok h
  obtain ⟨⟨a, behind⟩, ha, h⟩ := Except.of_bind_eq_ok h
  cases h
  exact ⟨g, a, between, hf, ha, rfl⟩

/-- A record takes the items of its fields, one behind the other. -/
theorem Consumes.seq {f : Fields (α → β)} (hf : f.Consumes) (h : fields.Consumes) :
    (f <*> fields).Consumes := by
  intro short place items b rest hread
  obtain ⟨g, a, between, hg, ha, -⟩ := of_app_ofItems hread
  rw [h ha, hf hg, List.drop_drop]
  rfl

/-- A record that is read has its fields read out of the value. -/
theorem reads_of_read {expected : String} (h : fields.read expected value = .ok a) :
    fields.Reads 0 a value := by
  unfold Fields.read at h
  split at h
  next entries => exact Except.of_mapError_eq_ok h
  next items =>
    obtain ⟨⟨read, rest⟩, hread, h⟩ := Except.of_bind_eq_ok h
    cases rest with
    | nil =>
        cases h
        exact ⟨_, _, hread⟩
    | cons => cases h
  next => cases h

theorem reads_of_readStrict {expected : String} (h : fields.readStrict expected value = .ok a) :
    fields.Reads 0 a value := by
  unfold readStrict at h
  split at h
  next entries =>
    split at h
    next hread _ =>
      cases h
      exact hread
    all_goals cases h
  next => exact reads_of_read h

/-- What is made of a field is made of what is read of it. -/
theorem Reads.of_map {f : α → β} (h : (f <$> fields).Reads place b value) :
    ∃ a, fields.Reads place a value ∧ f a = b := by
  cases value with
  | obj entries => exact Except.of_map_eq_ok (x := fields.ofEntries entries) h
  | arr items =>
      obtain ⟨short, rest, h⟩ := h
      obtain ⟨⟨a, rest⟩, hread, heq⟩ := Except.of_map_eq_ok
        (x := fields.ofItems short place (items.drop place)) h
      cases heq
      exact ⟨a, ⟨short, rest, hread⟩, rfl⟩
  | _ => cases h

/-- The fields of a record are read one behind the other. -/
theorem Reads.of_seq {f : Fields (α → β)} (hf : f.Consumes)
    (h : (f <*> fields).Reads place b value) :
    ∃ g a, f.Reads place g value ∧ fields.Reads (place + f.count) a value ∧ g a = b := by
  cases value with
  | obj entries =>
      change (f.app fields).ofEntries entries = .ok b at h
      simp only [app] at h
      split at h
      next g a hg ha =>
        cases h
        exact ⟨g, a, hg, ha, rfl⟩
      all_goals cases h
  | arr items =>
      obtain ⟨short, rest, h⟩ := h
      obtain ⟨g, a, between, hg, ha, hb⟩ := of_app_ofItems h
      rw [hf hg, List.drop_drop] at ha
      exact ⟨g, a, ⟨short, between, hg⟩, ⟨short, rest, ha⟩, hb⟩
  | _ => cases h

theorem head?_occurrences (name : String) (entries : Entries) :
    ((occurrences [name] entries).map (·.1)).head? = findValue? name entries := by
  rw [map_fst_occurrences, valuesUnder, List.head?_map, List.head?_filter, findValue?]
  simp only [List.contains_cons, List.contains_nil, Bool.or_false]

/-- What is read of a field is read of the value that stands for it, or is what it stands for when
it is missing. -/
theorem Reads.of_field {absent : Absent α} (h : (field name [] absent decode).Reads place a value) :
    (value.member? name place = none ∧ (absent.inObject = some a ∨ absent.inArray = some a)) ∨
      ∃ v, value.member? name place = some v ∧ decode v = .ok a := by
  cases value with
  | obj entries =>
      have hmember := head?_occurrences name entries
      simp only [Reads, field] at h
      cases hoccurrences : occurrences [name] entries with
      | nil =>
          rw [hoccurrences] at h hmember
          refine .inl ⟨hmember.symm, ?_⟩
          cases habsent : absent.inObject with
          | none => simp [habsent] at h
          | some d => simp_all
      | cons occurrence more =>
          obtain ⟨v, i⟩ := occurrence
          rw [hoccurrences] at h hmember
          refine .inr ⟨v, hmember.symm, ?_⟩
          cases hdecode : decode v with
          | error e => simp [hdecode] at h
          | ok b => cases more <;> simp_all
  | arr items =>
      obtain ⟨short, rest, h⟩ := h
      have hmember : (Json.arr items).member? name place = (items.drop place).head? := by
        rw [List.head?_drop]
        rfl
      rw [hmember]
      simp only [field] at h
      cases hitems : items.drop place with
      | nil =>
          rw [hitems] at h
          refine .inl ⟨rfl, ?_⟩
          cases habsent : absent.inArray with
          | none => simp [habsent] at h
          | some d => simp_all
      | cons v behind =>
          rw [hitems] at h
          obtain ⟨b, hdecode, heq⟩ := Except.of_map_eq_ok h
          cases heq
          exact .inr ⟨v, rfl, hdecode⟩
  | _ => cases h

/-- A field that must be there is, and is read of its value. -/
theorem Reads.of_need (h : (need name decode).Reads place a value) :
    ∃ v, value.member? name place = some v ∧ decode v = .ok a := by
  rcases h.of_field with ⟨-, habsent⟩ | hread
  · rcases habsent with habsent | habsent <;> cases habsent
  · exact hread

/-- A field with a default is missing or read of its value. -/
theorem Reads.of_defaulted {default : α} (h : (defaulted name default decode).Reads place a value) :
    (value.member? name place = none ∧ a = default) ∨
      ∃ v, value.member? name place = some v ∧ decode v = .ok a := by
  refine h.of_field.imp_left fun ⟨hnone, habsent⟩ => ⟨hnone, ?_⟩
  rcases habsent with habsent | habsent <;> exact (Option.some.inj habsent).symm

/-- A missing field that may be left out is read like `null`. -/
theorem Reads.of_optional {o : Option α} (h : (optional name decode).Reads place o value) :
    Option.Rel (fun v a => decode v = .ok a) ((value.member? name place).filter (!·.isNull)) o := by
  unfold optional optionalAs at h
  rcases h.of_field with ⟨hnone, habsent⟩ | ⟨v, hv, hread⟩
  · have hdefault : none = o := by
      rcases habsent with habsent | habsent <;> exact Option.some.inj habsent
    rw [hnone, ← hdefault]
    exact .none
  · rw [hv]
    unfold Decode.option at hread
    split at hread
    next =>
      cases hread
      exact .none
    next hvalue =>
      obtain ⟨a, ha, rfl⟩ := Except.of_map_eq_ok hread
      cases v with
      | null => cases hvalue rfl
      | _ => exact .some ha

end Fields

/-! ## Maps -/

/-- Items are read one by one. -/
theorem Decode.forall₂_of_items {decode : Decoder α} {values : List Json} {read : List α}
    (h : items decode values = .ok read) :
    List.Forall₂ (fun value a => decode value = .ok a) values read := by
  induction values generalizing read with
  | nil =>
      cases h
      exact .nil
  | cons value rest ih =>
      obtain ⟨a, ha, h⟩ := Except.of_bind_eq_ok h
      obtain ⟨more, hmore, h⟩ := Except.of_bind_eq_ok h
      cases h
      exact .cons ha (ih hmore)

/-- Entries of a map are read one by one. -/
theorem Decode.forall₂_of_pairs {key : String → Except DecodeError κ} {decode : Decoder α}
    {entries : Entries} {read : List (κ × α)} (h : pairs key decode entries = .ok read) :
    List.Forall₂ (fun entry pair => key entry.1 = .ok pair.1 ∧ decode entry.2 = .ok pair.2)
      entries read := by
  induction entries generalizing read with
  | nil =>
      cases h
      exact .nil
  | cons entry rest ih =>
      obtain ⟨k, hk, h⟩ := Except.of_bind_eq_ok h
      obtain ⟨a, ha, h⟩ := Except.of_bind_eq_ok h
      obtain ⟨more, hmore, h⟩ := Except.of_bind_eq_ok h
      cases h
      exact .cons ⟨hk, ha⟩ (ih hmore)

/-- Lists that correspond have what is looked for at the same place. -/
theorem rel_find? {R : α → β → Prop} {l : List α} {m : List β} (h : List.Forall₂ R l m)
    {p : α → Bool} {q : β → Bool} (hpq : ∀ a b, R a b → p a = q b) :
    Option.Rel R (l.find? p) (m.find? q) := by
  induction h with
  | nil => exact .none
  | @cons a b l m hab _ ih =>
      rw [List.find?_cons, List.find?_cons, hpq a b hab]
      cases q b with
      | true => exact .some hab
      | false => exact ih

/-- The value read of a key of a map is that of the last entry under it. -/
theorem Decode.rel_of_map [BEq κ] {key : String → Except DecodeError κ} {decode : Decoder α}
    {value : Json} {read : List (κ × α)} (h : map key decode value = .ok read) {k : κ}
    {name : String} (hname : ∀ s k', key s = .ok k' → (s == name) = (k' == k)) :
    Option.Rel (fun v a => decode v = .ok a) (value.lastValue? name)
      ((read.reverse.find? (·.1 == k)).map (·.2)) := by
  unfold map at h
  split at h
  next entries =>
    have hpairs := List.forall₂_reverse_iff.mpr (forall₂_of_pairs h)
    have hfound := rel_find? hpairs (p := (·.1 == name)) (q := (·.1 == k))
      fun entry pair hpair => hname _ _ hpair.1
    unfold Json.lastValue? findValue?
    dsimp only
    generalize entries.reverse.find? (·.1 == name) = entry at hfound ⊢
    generalize read.reverse.find? (·.1 == k) = pair at hfound ⊢
    cases hfound with
    | none => exact .none
    | some hpair => exact .some hpair.2
  next => cases h

end TaskDiagram
