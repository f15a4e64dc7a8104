import Mathlib.Algebra.Order.Ring.Nat
import Mathlib.Data.List.DropRight
import TaskDiagram.Library.Catalog

/-! # Items and their own names

A name is looked up without the blanks at its ends, but the names of items are compared as they
are. So an item answers to its own name, before any item that lists the name among its keywords,
unless the name has a blank at one end: then nobody bears what is looked up for it.
-/

namespace TaskDiagram

namespace Text

/-! ## Blanks at the ends -/

/-- A blank stands at one end. -/
def Padded (s : String) : Prop :=
  (∃ c ∈ s.toList.head?, isBlank c = true) ∨ ∃ c ∈ s.toList.getLast?, isBlank c = true

variable {p : Char → Bool} {cs : List Char}

theorem stripList_eq_rdropWhile (p : Char → Bool) (cs : List Char) :
    stripList p cs = (cs.dropWhile p).rdropWhile p := rfl

theorem stripList_sublist (p : Char → Bool) (cs : List Char) : (stripList p cs).Sublist cs :=
  (List.rdropWhile_prefix p _).sublist.trans (List.dropWhile_suffix p).sublist

/-- Nothing is cut off only if there is nothing to cut off at either end. -/
theorem stripList_eq_self_iff : stripList p cs = cs ↔
    (∀ c ∈ cs.head?, p c = false) ∧ ∀ c ∈ cs.getLast?, p c = false := by
  have hfront : cs.dropWhile p = cs ↔ ∀ c ∈ cs.head?, p c = false := by
    cases cs with
    | nil => simp
    | cons c rest =>
        rw [List.dropWhile_eq_self_iff]
        simp
  have hback : cs.rdropWhile p = cs ↔ ∀ c ∈ cs.getLast?, p c = false := by
    rw [List.rdropWhile_eq_self_iff]
    cases cs with
    | nil => simp
    | cons c rest => simp [List.getLast?_eq_getLast_of_ne_nil]
  rw [stripList_eq_rdropWhile, ← hfront, ← hback]
  constructor
  · intro hsame
    -- What is cut off at one end is not made good at the other.
    have hshort := (List.rdropWhile_prefix p (cs.dropWhile p)).length_le
    rw [hsame] at hshort
    have hdrop : cs.dropWhile p = cs :=
      (List.dropWhile_suffix p).eq_of_length_le hshort
    rw [hdrop] at hsame
    exact ⟨hdrop, hsame⟩
  · rintro ⟨hdrop, hrdrop⟩
    rw [hdrop, hrdrop]

theorem trim_eq_self_iff {s : String} : trim s = s ↔ ¬ Padded s := by
  have hlist : trim s = s ↔ stripList isBlank s.toList = s.toList := by
    rw [trim, ← String.toList_inj, String.toList_ofList]
  rw [hlist, stripList_eq_self_iff, Padded, not_or]
  simp

/-! ## Length in lower case -/

/-- How many characters a character is in lower case. -/
def lowerWidth (c : Char) : Nat := if c == '\u03a3' then 1 else (lowerChar c).length

theorem lowerWidth_pos (c : Char) : 1 ≤ lowerWidth c := by
  unfold lowerWidth lowerChar
  split
  · exact Nat.le_refl _
  · split
    · exact Nat.le_refl _
    · split
      · exact Nat.le_succ _
      · split
        · split <;> exact Nat.le_refl _
        · exact Nat.le_refl _

/-- The characters around a character decide which one it becomes, but not how many. -/
theorem length_lowerFrom (before cs : List Char) :
    (lowerFrom before cs).length = (cs.map lowerWidth).sum := by
  induction cs generalizing before with
  | nil => rfl
  | cons c rest ih =>
      rw [lowerFrom, List.length_append, ih, List.map_cons, List.sum_cons]
      congr 1
      unfold lowerWidth
      split
      · split <;> rfl
      · rfl

theorem sum_lowerWidth_le {cs ds : List Char} (h : cs.Sublist ds) :
    (cs.map lowerWidth).sum + ds.length ≤ (ds.map lowerWidth).sum + cs.length := by
  induction h with
  | slnil => exact Nat.le_refl _
  | cons d _ ih =>
      have hwidth := lowerWidth_pos d
      simp only [List.map_cons, List.sum_cons, List.length_cons]
      omega
  | cons_cons c _ ih =>
      simp only [List.map_cons, List.sum_cons, List.length_cons]
      omega

/-- Without the blanks at its ends a text is shorter in lower case too. -/
theorem lowercase_trim_eq_iff {s : String} :
    lowercase (trim s) = lowercase s ↔ ¬ Padded s := by
  rw [← trim_eq_self_iff]
  refine ⟨fun h => ?_, congrArg lowercase⟩
  have hsublist := stripList_sublist isBlank s.toList
  have hlengths := congrArg (fun t => t.toList.length) h
  simp only [lowercase, trim, String.toList_ofList, length_lowerFrom] at hlengths
  have hlength : (stripList isBlank s.toList).length = s.toList.length := by
    have hle := sum_lowerWidth_le hsublist
    have hshort := hsublist.length_le
    omega
  rw [trim, hsublist.eq_of_length hlength, String.ofList_toList]

end Text

/-! ## Looking up an item by its own name -/

/-- Names that are equal but for letter case. -/
def LibraryItem.SameName (a b : LibraryItem) : Prop := Text.lowercase a.name = Text.lowercase b.name

namespace Catalog

variable {kind : LibraryKind} {item : LibraryItem}

theorem find?_eq (catalog : Catalog) (kind : LibraryKind) (name : String) :
    catalog.find? kind name =
      ((catalog.items kind).find? (bears (Text.lowercase (Text.trim name)))).or
        ((catalog.items kind).find? (lists (Text.lowercase (Text.trim name)))) := rfl

theorem bears_iff {other : LibraryItem} :
    bears (Text.lowercase item.name) other = true ↔ other.SameName item := beq_iff_eq

/-- An item whose name has no blank at either end answers to it, unless an item of the same name
stands before it. -/
theorem find?_of_not_padded (catalog : Catalog) (hitem : item ∈ catalog.items kind)
    (h : ¬ Text.Padded item.name) : ∃ before found after,
      catalog.items kind = before ++ found :: after ∧ found.SameName item ∧
        (∀ other ∈ before, ¬ other.SameName item) ∧
        catalog.find? kind item.name = some found := by
  have hborne : ((catalog.items kind).find? (bears (Text.lowercase item.name))).isSome :=
    List.find?_isSome.mpr ⟨item, hitem, bears_iff.mpr rfl⟩
  obtain ⟨found, hfound⟩ := Option.isSome_iff_exists.mp hborne
  obtain ⟨hbears, before, after, hitems, hbefore⟩ := List.find?_eq_some_iff_append.mp hfound
  refine ⟨before, found, after, hitems, bears_iff.mp hbears, fun other hother hsame => ?_, ?_⟩
  · simpa [bears_iff.mpr hsame] using hbefore other hother
  · rw [find?_eq, Text.lowercase_trim_eq_iff.mpr h, hfound, Option.some_or]

/-- An item whose name has a blank at one end is found by a keyword only, and only if no item bears
the name without the blanks. -/
theorem lists_of_padded (catalog : Catalog) (h : Text.Padded item.name) {found : LibraryItem}
    (hfound : catalog.find? kind item.name = some found) (hsame : found.SameName item) :
    (∀ other ∈ catalog.items kind,
        bears (Text.lowercase (Text.trim item.name)) other = false) ∧
      lists (Text.lowercase (Text.trim item.name)) found = true := by
  have hother : Text.lowercase found.name ≠ Text.lowercase (Text.trim item.name) := by
    intro heq
    exact Text.lowercase_trim_eq_iff.mp (heq.symm.trans hsame) h
  rw [find?_eq] at hfound
  generalize Text.lowercase (Text.trim item.name) = wanted at hfound hother ⊢
  rcases Option.or_eq_some_iff.mp hfound with hborne | ⟨hnone, hlisted⟩
  · have hbears : bears wanted found = true := List.find?_some hborne
    exact absurd (beq_iff_eq.mp hbears) hother
  · refine ⟨fun other hmem => ?_, List.find?_some hlisted⟩
    simpa using List.find?_eq_none.mp hnone other hmem

/-- An item is found under its own name, as the first of that name and before all keywords, exactly
if the name has no blank at either end. A name with such a blank finds what the name without it
finds: the item itself at most by a keyword, when no item bears the name without the blank. -/
theorem items_answer_to_trimmed_names (catalog : Catalog) (kind : LibraryKind) (item : LibraryItem)
    (hitem : item ∈ catalog.items kind) :
    (¬ Text.Padded item.name → ∃ before found after,
      catalog.items kind = before ++ found :: after ∧ found.SameName item ∧
        (∀ other ∈ before, ¬ other.SameName item) ∧
        catalog.find? kind item.name = some found) ∧
    (Text.Padded item.name →
      (∀ other ∈ catalog.items kind, other.SameName item →
        bears (Text.lowercase (Text.trim item.name)) other = false) ∧
      ∀ found, catalog.find? kind item.name = some found → found.SameName item →
        (∀ other ∈ catalog.items kind,
          bears (Text.lowercase (Text.trim item.name)) other = false) ∧
        lists (Text.lowercase (Text.trim item.name)) found = true) := by
  refine ⟨catalog.find?_of_not_padded hitem, fun hpadded => ⟨fun other _ hsame => ?_, ?_⟩⟩
  · refine beq_eq_false_iff_ne.mpr fun heq => ?_
    exact Text.lowercase_trim_eq_iff.mp (heq.symm.trans hsame) hpadded
  · exact fun _ hfound hsame => catalog.lists_of_padded hpadded hfound hsame

/-- Two glasses, the first of which is also called a cup, behind a cup with a blank in front of its
name. -/
def shelf : Catalog :=
  ⟨[⟨1, " Cup", none⟩, ⟨2, "Glass", some ["cup"]⟩, ⟨3, "GLASS", none⟩], [], []⟩

/-- The second glass finds the first one, since their names differ in letter case only. -/
theorem glass_answers_to_its_name :
    let glass : LibraryItem := ⟨3, "GLASS", none⟩
    glass ∈ shelf.items .object ∧ ¬ Text.Padded glass.name ∧
      ∃ before found after, shelf.items .object = before ++ found :: after ∧
        found.SameName glass ∧ (∀ other ∈ before, ¬ other.SameName glass) ∧
        shelf.find? .object glass.name = some found := by
  intro glass
  have hmem : glass ∈ shelf.items .object := by decide
  have htrimmed : ¬ Text.Padded glass.name := Text.trim_eq_self_iff.mp (by decide)
  exact ⟨hmem, htrimmed, (items_answer_to_trimmed_names shelf .object glass hmem).1 htrimmed⟩

/-- The cup is not found under its own name: a glass with the keyword is. -/
theorem padded_cup_is_shadowed :
    let cup : LibraryItem := ⟨1, " Cup", none⟩
    let glass : LibraryItem := ⟨2, "Glass", some ["cup"]⟩
    cup ∈ shelf.items .object ∧ shelf.find? .object cup.name = some glass ∧
      ¬ glass.SameName cup := by
  refine ⟨by decide, by decide +kernel, ?_⟩
  unfold LibraryItem.SameName
  decide +kernel

end Catalog

end TaskDiagram
