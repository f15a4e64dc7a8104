import Mathlib.Data.List.Nodup
import TaskDiagram.Proofs.Program.References

/-! # Repairing references

A repaired reference is the one it was or the reference to an item of the library. What refers to an
item keeps referring to it however often the repair is made, since the items of a kind have different
ids; so the laws of repairing a program are those of single references.
-/

namespace TaskDiagram

/-- No two items of one kind share an id. -/
def Catalog.IdsDiffer (catalog : Catalog) : Prop :=
  ∀ kind, ((catalog.items kind).map (·.id)).Nodup

/-- Where ids differ, an item is found under its own. -/
theorem Catalog.IdsDiffer.byId? {catalog : Catalog} (h : catalog.IdsDiffer) {kind : LibraryKind}
    {item : LibraryItem} (hitem : item ∈ catalog.items kind) :
    catalog.byId? kind item.id = some item := by
  have hfound : (catalog.byId? kind item.id).isSome :=
    List.find?_isSome.mpr ⟨item, hitem, beq_self_eq_true _⟩
  obtain ⟨other, hother⟩ := Option.isSome_iff_exists.mp hfound
  have hid : other.id = item.id := by simpa using List.find?_some hother
  have hsame := List.inj_on_of_nodup_map (h kind) (List.mem_of_find?_eq_some hother) hitem hid
  rw [hother, hsame]

theorem Catalog.mem_items_of_find? {catalog : Catalog} {kind : LibraryKind} {name : String}
    {item : LibraryItem} (h : catalog.find? kind name = some item) :
    item ∈ catalog.items kind := by
  rcases Option.or_eq_some_iff.mp h with hborne | ⟨-, hlisted⟩
  · exact List.mem_of_find?_eq_some hborne
  · exact List.mem_of_find?_eq_some hlisted

/-! ## Single references -/

namespace Reference

variable {catalog : Catalog} {kind : LibraryKind} {r : Reference}

/-- A reference that has an id is not looked up by name. -/
theorem resolve_of_id (h : r.id.isSome) : r.resolve catalog kind = r := by
  obtain ⟨name, id⟩ := r
  cases id with
  | none => cases h
  | some id => cases name <;> rfl

/-- A reference without a name that the library knows is not resolved. -/
theorem resolve_of_unknown (h : ∀ name ∈ r.name, catalog.find? kind name = none) :
    r.resolve catalog kind = r := by
  obtain ⟨name, id⟩ := r
  cases name with
  | none => rfl
  | some name =>
      cases id with
      | none => simp [resolve, h name rfl]
      | some id => rfl

/-- Without an id refreshing is resolving. -/
theorem refresh_of_no_id (h : r.id = none) : r.refresh catalog kind = r.resolve catalog kind := by
  rw [refresh, h]

/-- A resolved reference is the one it was, or had no id and refers to an item now. -/
theorem resolve_cases (catalog : Catalog) (kind : LibraryKind) (r : Reference) :
    r.resolve catalog kind = r ∨
      r.id = none ∧ ∃ item ∈ catalog.items kind, r.resolve catalog kind = ofItem item := by
  obtain ⟨name, id⟩ := r
  cases name with
  | none => exact .inl rfl
  | some name =>
      cases id with
      | some id => exact .inl rfl
      | none =>
          cases hfind : catalog.find? kind name with
          | none => exact .inl (by simp [resolve, hfind])
          | some item =>
              exact .inr ⟨rfl, item, Catalog.mem_items_of_find? hfind, by simp [resolve, hfind]⟩

/-- What refreshing leaves alone resolving leaves alone too. -/
theorem refresh_cases (catalog : Catalog) (kind : LibraryKind) (r : Reference) :
    r.refresh catalog kind = r ∧ r.resolve catalog kind = r ∨
      ∃ item ∈ catalog.items kind, r.refresh catalog kind = ofItem item := by
  cases hid : r.id with
  | none =>
      rw [refresh_of_no_id hid]
      rcases resolve_cases catalog kind r with hsame | ⟨-, hitem⟩
      · exact .inl ⟨hsame, hsame⟩
      · exact .inr hitem
  | some id =>
      cases hfind : catalog.byId? kind id with
      | none =>
          exact .inl ⟨by simp [refresh, hid, hfind], resolve_of_id (by rw [hid]; rfl)⟩
      | some item =>
          exact .inr ⟨item, List.mem_of_find?_eq_some hfind, by simp [refresh, hid, hfind]⟩

theorem resolve_ofItem (item : LibraryItem) :
    (ofItem item).resolve catalog kind = ofItem item := rfl

/-- Resolving twice is resolving once. -/
theorem resolve_resolve (catalog : Catalog) (kind : LibraryKind) (r : Reference) :
    (r.resolve catalog kind).resolve catalog kind = r.resolve catalog kind := by
  rcases resolve_cases catalog kind r with hsame | ⟨-, item, -, hitem⟩
  · rw [hsame, hsame]
  · rw [hitem, resolve_ofItem]

/-- What was refreshed has nothing left to resolve. -/
theorem resolve_refresh (catalog : Catalog) (kind : LibraryKind) (r : Reference) :
    (r.refresh catalog kind).resolve catalog kind = r.refresh catalog kind := by
  rcases refresh_cases catalog kind r with ⟨hsame, hresolved⟩ | ⟨item, -, hitem⟩
  · rw [hsame, hresolved]
  · rw [hitem, resolve_ofItem]

section Unique

variable (h : catalog.IdsDiffer)
include h

theorem refresh_ofItem {item : LibraryItem} (hitem : item ∈ catalog.items kind) :
    (ofItem item).refresh catalog kind = ofItem item := by
  simp [refresh, ofItem, h.byId? hitem]

/-- Refreshing twice is refreshing once. -/
theorem refresh_refresh (kind : LibraryKind) (r : Reference) :
    (r.refresh catalog kind).refresh catalog kind = r.refresh catalog kind := by
  rcases refresh_cases catalog kind r with ⟨hsame, -⟩ | ⟨item, hmem, hitem⟩
  · rw [hsame, hsame]
  · rw [hitem, refresh_ofItem h hmem]

/-- Resolving first changes nothing about what refreshing finds. -/
theorem refresh_resolve (kind : LibraryKind) (r : Reference) :
    (r.resolve catalog kind).refresh catalog kind = r.refresh catalog kind := by
  rcases resolve_cases catalog kind r with hsame | ⟨hid, item, hmem, hitem⟩
  · rw [hsame]
  · rw [refresh_of_no_id hid, hitem, refresh_ofItem h hmem]

end Unique

end Reference

/-! ## Programs -/

/-- A repair leaves alone what names nothing the library knows. -/
structure Program.Untouched (catalog : Catalog) (p repaired : Program) : Prop where
  blank : ∀ place r, p.reference? place = some r → r.isBlank = true →
    repaired.reference? place = some r
  unknown : ∀ place name, p.reference? place = some ⟨some name, none⟩ →
    catalog.find? place.entity name = none → repaired.reference? place = some ⟨some name, none⟩

namespace Program

variable {catalog : Catalog} (p : Program)

/-- A repair that leaves a reference alone leaves the program alone there. -/
theorem untouched_mapReferences {f : LibraryKind → Reference → Reference}
    (hf : ∀ kind r, r.id = none → (∀ name ∈ r.name, catalog.find? kind name = none) →
      f kind r = r) :
    Untouched catalog p (p.mapReferences f) where
  blank place r hr hblank := by
    obtain ⟨name, id⟩ := r
    simp only [Reference.isBlank, Bool.and_eq_true, Option.isNone_iff_eq_none] at hblank
    obtain ⟨rfl, rfl⟩ := hblank
    have hunnamed : ∀ name ∈ (⟨none, none⟩ : Reference).name,
        catalog.find? place.entity name = none := fun _ hname => by cases hname
    rw [reference?_mapReferences, hr, Option.map_some, hf _ _ rfl hunnamed]
  unknown place name hr hunknown := by
    rw [reference?_mapReferences, hr, Option.map_some, hf _ _ rfl]
    rintro _ ⟨⟩
    exact hunknown

theorem untouched_resolve : Untouched catalog p (p.resolve catalog) :=
  untouched_mapReferences p fun _ _ _ hunknown => Reference.resolve_of_unknown hunknown

theorem untouched_refresh : Untouched catalog p (p.refresh catalog) :=
  untouched_mapReferences p fun _ _ hid hunknown =>
    (Reference.refresh_of_no_id hid).trans (Reference.resolve_of_unknown hunknown)

/-- Where no two items of one kind share an id, a program that was repaired is repaired for good:
resolving and refreshing are idempotent, and in either order they are refreshing alone. Nothing but
names and ids of references is changed, and of these none that is blank or bears a name the library
does not know; resolving changes no reference that has an id. -/
theorem repair_is_stable_and_local (h : catalog.IdsDiffer) :
    (p.resolve catalog).resolve catalog = p.resolve catalog ∧
      (p.refresh catalog).refresh catalog = p.refresh catalog ∧
      (p.resolve catalog).refresh catalog = p.refresh catalog ∧
      (p.refresh catalog).resolve catalog = p.refresh catalog ∧
      p.SameButReferences (p.resolve catalog) ∧ p.SameButReferences (p.refresh catalog) ∧
      Untouched catalog p (p.resolve catalog) ∧ Untouched catalog p (p.refresh catalog) ∧
      ∀ place r, p.reference? place = some r → r.id.isSome →
        (p.resolve catalog).reference? place = some r := by
  refine ⟨?_, ?_, ?_, ?_, sameButReferences_mapReferences _ p, sameButReferences_mapReferences _ p,
    untouched_resolve p, untouched_refresh p, fun place r hr hid => ?_⟩
  · simp only [resolve, mapReferences_mapReferences, Reference.resolve_resolve]
  · simp only [refresh, mapReferences_mapReferences, Reference.refresh_refresh h]
  · simp only [resolve, refresh, mapReferences_mapReferences, Reference.refresh_resolve h]
  · simp only [resolve, refresh, mapReferences_mapReferences, Reference.resolve_refresh]
  · rw [resolve, reference?_mapReferences, hr, Option.map_some, Reference.resolve_of_id hid]

end Program

/-- A library in which a keyword of one object is the name of another, and a location has the id of
an object. -/
def kitchen : Catalog :=
  ⟨[⟨1, "Cup", some ["mug", "glass"]⟩, ⟨2, "Mug", none⟩], [⟨1, "Sink", some ["basin"]⟩], []⟩

/-- A program with a reference by name, one by a keyword, one by an id under a former name, one by an
unknown name and a blank one. -/
def washing : Program :=
  ⟨⟨some ⟨some " MUG", none⟩, some .blank, some ⟨some "basin", none⟩⟩,
    [⟨some .when, none, some ⟨some .findObject, some ⟨some "beaker", some 1⟩⟩, none,
      ⟨some ⟨some "plate", none⟩, none, none⟩⟩]⟩

/-- The name is found before the keyword, and only refreshing takes over the present name. -/
theorem washing_is_repaired_for_good :
    kitchen.IdsDiffer ∧
      washing.resolve kitchen = ⟨⟨some ⟨some "Mug", some 2⟩, some .blank, some ⟨some "Sink", some 1⟩⟩,
        [⟨some .when, none, some ⟨some .findObject, some ⟨some "beaker", some 1⟩⟩, none,
          ⟨some ⟨some "plate", none⟩, none, none⟩⟩]⟩ ∧
      (washing.resolve kitchen).refresh kitchen = washing.refresh kitchen ∧
      (washing.refresh kitchen).reference? (.target 0) = some ⟨some "Cup", some 1⟩ ∧
      (washing.refresh kitchen).refresh kitchen = washing.refresh kitchen := by
  have hdiffer : kitchen.IdsDiffer := by
    intro kind
    cases kind <;> decide
  obtain ⟨-, hrefreshed, hboth, -⟩ := washing.repair_is_stable_and_local hdiffer
  exact ⟨hdiffer, by decide +kernel, hboth, by decide +kernel, hrefreshed⟩

end TaskDiagram
