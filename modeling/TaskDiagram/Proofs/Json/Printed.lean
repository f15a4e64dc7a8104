import TaskDiagram.Proofs.Json.Doubles
import TaskDiagram.Proofs.Json.Everywhere
import TaskDiagram.Proofs.Json.QuotedText

/-! # Compact text is read back

The compact text of a value is read as the value, unless the value has containers nested too deep:
then it is refused. Whole numbers of 64 bits, texts and keys come back as they are; a double comes
back as what is read of its own text, which need not be the same double.
-/

namespace TaskDiagram.Json

variable {fuel depth : Nat} {rest : List Char}

theorem skipSpace_cons {c : Char} (h : isSpace c = false) (cs : List Char) :
    skipSpace (c :: cs) = c :: cs := by
  simp [skipSpace, h]

/-! ## Values that hold no other -/

theorem isSpace_of_isDigit {c : Char} (h : c.isDigit = true) : isSpace c = false := by
  have hne : ∀ space : Char, space.isDigit = false → c ≠ space := by
    rintro space hspace rfl
    rw [h] at hspace
    cases hspace
  simp [isSpace, hne ' ' rfl, hne '\n' rfl, hne '\t' rfl, hne '\r' rfl]

/-- How a text begins that is read as a number. -/
theorem readValue_digit {c : Char} (h : c.isDigit = true) (cs : List Char) :
    readValue (fuel + 1) depth (c :: cs) = readNumber false (c :: cs) := by
  have hne : ∀ other : Char, other.isDigit = false → c ≠ other := by
    rintro other hother rfl
    rw [h] at hother
    cases hother
  have hspace := skipSpace_cons (isSpace_of_isDigit h) cs
  have h1 := hne 'n' rfl
  have h2 := hne 't' rfl
  have h3 := hne 'f' rfl
  have h4 := hne '-' rfl
  have h5 := hne '"' rfl
  have h6 := hne '[' rfl
  have h7 := hne '\x7b' rfl
  simp [readValue, hspace, h]

theorem readValue_minus (cs : List Char) :
    readValue (fuel + 1) depth ('-' :: cs) = readNumber true cs := by
  rw [readValue, skipSpace_cons (by decide)]
  rfl

/-- The text of one double is read as another. -/
def ReadsAs (x y : Float) : Prop := read (Decimal.Style.document.text x) = .ok (.float y)

/-- The double that is read of the text of a double. -/
def reread (x : Float) : Float :=
  match read (Decimal.Style.document.text x) with
  | .ok (.float y) => y
  | _ => x

theorem ReadsAs.reread_eq {x y : Float} (h : ReadsAs x y) : reread x = y := by
  unfold ReadsAs at h
  simp only [reread, h]

/-- The text of a finite double is read as some double, whatever ends the number behind it. -/
theorem exists_readsAs {x : Float} (h : x.isFinite = true) :
    ∃ y, ReadsAs x y ∧ ∀ {fuel depth rest}, EndsNumber rest →
      readValue (fuel + 1) depth ((Decimal.Style.document.text x).toList ++ rest) =
        .ok (.float y, rest) := by
  obtain ⟨c, ds, hdigit, ⟨y, hread⟩, htext⟩ := exists_text h
  obtain ⟨y, hvalue⟩ : ∃ y, ∀ {fuel depth rest}, EndsNumber rest →
      readValue (fuel + 1) depth ((Decimal.Style.document.text x).toList ++ rest) =
        .ok (.float y, rest) := by
    rw [htext]
    split
    · refine ⟨-y, fun hrest => ?_⟩
      rw [List.cons_append, readValue_minus]
      exact hread true _ hrest
    · refine ⟨y, fun hrest => ?_⟩
      rw [List.cons_append, readValue_digit hdigit]
      exact hread false _ hrest
  refine ⟨y, ?_, hvalue⟩
  have halone := @hvalue (2 * (Decimal.Style.document.text x).toList.length + 1) maxDepth []
    endsNumber_nil
  rw [List.append_nil] at halone
  simp only [ReadsAs, read, readWithin, readFront, halone]
  rfl

/-- Only the text of a finite double is read as a double. -/
theorem ReadsAs.isFinite {x y : Float} (h : ReadsAs x y) : x.isFinite = true := by
  cases hfinite : x.isFinite with
  | true => rfl
  | false =>
      have htext : Decimal.Style.document.text x = "null" := by
        unfold Decimal.Style.text
        dsimp only
        split
        next => rfl
        next hnumber =>
          rw [if_pos ((Decimal.isNaN_or_isInf hfinite).resolve_left hnumber)]
          split <;> rfl
      have hnull : read "null" = .ok .null := rfl
      rw [ReadsAs, htext, hnull] at h
      cases h

/-- A double is read back from its text when it is finite and what is read is the double. -/
theorem readsAs_self_iff {x : Float} : ReadsAs x x ↔ x.isFinite = true ∧ reread x = x := by
  constructor
  · intro h
    exact ⟨h.isFinite, h.reread_eq⟩
  · rintro ⟨hfinite, hsame⟩
    obtain ⟨y, hy, -⟩ := exists_readsAs hfinite
    obtain rfl : x = y := hsame.symm.trans hy.reread_eq
    exact hy

/-- What is read of the text of a double alone is read of it in front of other text. -/
theorem readValue_float {x : Float} (h : x.isFinite = true) (hrest : EndsNumber rest) :
    readValue (fuel + 1) depth ((Decimal.Style.document.text x).toList ++ rest) =
      .ok (.float (reread x), rest) := by
  obtain ⟨y, hy, hvalue⟩ := exists_readsAs h
  rw [hvalue hrest, hy.reread_eq]

/-! ## Steps of the readers of containers -/

/-- How the text of a value begins. -/
def BeginsValue (cs : List Char) : Prop := ∃ c more, cs = c :: more ∧ isSpace c = false ∧ c ≠ ']'

theorem BeginsValue.append {cs : List Char} (h : BeginsValue cs) (more : List Char) :
    BeginsValue (cs ++ more) := by
  obtain ⟨c, cs, rfl, hspace, hend⟩ := h
  exact ⟨c, cs ++ more, rfl, hspace, hend⟩

theorem readItems_nil (first : Bool) (done : List Json) :
    readItems (fuel + 1) depth first done (']' :: rest) = .ok (done.reverse, rest) := by
  rw [readItems, skipSpace_cons (by decide)]
  rfl

/-- The first item is read without a comma in front. -/
theorem readItems_first {cs : List Char} (h : BeginsValue cs) (done : List Json) :
    readItems (fuel + 1) depth true done cs = (do
      let (item, rest) ← readValue fuel depth cs
      readItems fuel depth false (item :: done) rest) := by
  obtain ⟨c, cs, rfl, hspace, hend⟩ := h
  rw [readItems, skipSpace_cons hspace]
  simp

/-- Every other item is read behind a comma. -/
theorem readItems_next {cs : List Char} (h : BeginsValue cs) (done : List Json) :
    readItems (fuel + 1) depth false done (',' :: cs) = (do
      let (item, rest) ← readValue fuel depth cs
      readItems fuel depth false (item :: done) rest) := by
  obtain ⟨c, cs, rfl, hspace, hend⟩ := h
  rw [readItems, skipSpace_cons (by decide)]
  simp [skipSpace_cons hspace, hend]

theorem readEntries_nil (first : Bool) (done : Entries) :
    readEntries (fuel + 1) depth first done ('\x7d' :: rest) = .ok (done.reverse, rest) := by
  rw [readEntries, skipSpace_cons (by decide)]
  rfl

/-- The text of a key and what stands behind it. -/
def keyText (key : String) (cs : List Char) : List Char :=
  '"' :: (key.toList.flatMap escapeChar ++ '"' :: ':' :: cs)

/-- The first entry is read without a comma in front. -/
theorem readEntries_first (key : String) (cs : List Char) (done : Entries) :
    readEntries (fuel + 1) depth true done (keyText key cs) = (do
      let (value, rest) ← readValue fuel depth cs
      readEntries fuel depth false ((key, value) :: done) rest) := by
  have hkey := readText_writeText key (':' :: cs)
  have hcolon : skipSpace (':' :: cs) = ':' :: cs := skipSpace_cons (by decide) cs
  rw [keyText, readEntries, skipSpace_cons (by decide)]
  generalize key.toList.flatMap escapeChar ++ '"' :: ':' :: cs = quoted at hkey ⊢
  simp [bind, Except.bind, pure, Except.pure, hkey, hcolon]

/-- Every other entry is read behind a comma. -/
theorem readEntries_next (key : String) (cs : List Char) (done : Entries) :
    readEntries (fuel + 1) depth false done (',' :: keyText key cs) = (do
      let (value, rest) ← readValue fuel depth cs
      readEntries fuel depth false ((key, value) :: done) rest) := by
  have hkey := readText_writeText key (':' :: cs)
  have hcolon : skipSpace (':' :: cs) = ':' :: cs := skipSpace_cons (by decide) cs
  rw [keyText, readEntries, skipSpace_cons (by decide)]
  generalize key.toList.flatMap escapeChar ++ '"' :: ':' :: cs = quoted at hkey ⊢
  simp [bind, Except.bind, pure, Except.pure, hkey, hcolon,
    skipSpace_cons (by decide : isSpace '"' = false)]

/-! ## The text of containers -/

/-- Items behind others. -/
def itemsBehind (items : List Json) : List Char :=
  items.flatMap fun item => ',' :: item.compact.toList

/-- Entries behind others. -/
def entriesBehind (entries : Entries) : List Char :=
  entries.flatMap fun entry => ',' :: keyText entry.1 entry.2.compact.toList

theorem keyText_append (key : String) (cs more : List Char) :
    keyText key cs ++ more = keyText key (cs ++ more) := by
  simp [keyText]

theorem length_keyText (key : String) (cs : List Char) :
    (keyText key cs).length = (key.toList.flatMap escapeChar).length + cs.length + 3 := by
  simp [keyText]
  omega

/-- The text of items is that of the first one and of those behind it. -/
theorem toList_compactItems (item : Json) (more : List Json) :
    (compactItems (item :: more)).toList = item.compact.toList ++ itemsBehind more := by
  induction more generalizing item with
  | nil => simp [compactItems, itemsBehind]
  | cons next more ih =>
      rw [compactItems, String.toList_append, String.toList_append, ih]
      · simp [itemsBehind]
      · simp

/-- The text of entries is that of the first one and of those behind it. -/
theorem toList_compactEntries (key : String) (value : Json) (more : Entries) :
    (compactEntries ((key, value) :: more)).toList =
      keyText key (value.compact.toList ++ entriesBehind more) := by
  induction more generalizing key value with
  | nil => simp [compactEntries, entriesBehind, keyText, toList_writeText]
  | cons next more ih =>
      obtain ⟨nextKey, nextValue⟩ := next
      rw [compactEntries]
      · simp only [String.toList_append, ih, toList_writeText]
        simp [entriesBehind, keyText]
      · simp

/-! ## Legible values -/

/-- Whole numbers fit 64 bits, and doubles are finite. -/
def IsLegible (_ : Option String) : Json → Prop
  | .int n => FitsWord n
  | .float x => x.isFinite = true
  | _ => True

mutual

/-- The same value with other doubles. -/
def mapFloats (f : Float → Float) : Json → Json
  | .float x => .float (f x)
  | .arr items => .arr (mapItems f items)
  | .obj entries => .obj (mapEntries f entries)
  | .null => .null
  | .bool b => .bool b
  | .int n => .int n
  | .str s => .str s

def mapItems (f : Float → Float) : List Json → List Json
  | [] => []
  | item :: rest => item.mapFloats f :: mapItems f rest

def mapEntries (f : Float → Float) : Entries → Entries
  | [] => []
  | (key, value) :: rest => (key, value.mapFloats f) :: mapEntries f rest

end

/-- The digits of a word are read as the number. -/
theorem readValue_natDigits {n : Nat} (h : n ≤ Decimal.maxWord64) (hrest : EndsNumber rest) :
    readValue (fuel + 1) depth (Nat.toDigits 10 n ++ rest) = .ok (.int n, rest) := by
  have hread := readNumber_toDigits false h hrest
  obtain ⟨d, ds, hds⟩ := List.exists_cons_of_ne_nil (Nat.toDigits_ne_nil (n := n) (b := 10))
  have hdigit : d.isDigit = true := isDigit_of_mem_toDigits d (hds ▸ List.mem_cons_self)
  rw [hds, List.cons_append] at hread ⊢
  rw [readValue_digit hdigit]
  exact hread

/-- A whole number that fits is read back from its text, whatever ends it. -/
theorem readValue_int {n : Int} (h : FitsWord n) (hrest : EndsNumber rest) :
    readValue (fuel + 1) depth ((toString n).toList ++ rest) = .ok (.int n, rest) := by
  obtain ⟨hlow, hhigh⟩ := h
  cases n with
  | ofNat n =>
      rw [Int.ofNat_eq_natCast, toList_toString_natCast]
      exact readValue_natDigits (Int.ofNat_le.mp hhigh) hrest
  | negSucc n =>
      have hbound : (n + 1 : Nat) ≤ Decimal.maxInt64 + 1 := by
        rw [Decimal.minInt64] at hlow
        rw [Decimal.maxInt64]
        omega
      have hfits : n + 1 ≤ Decimal.maxWord64 := by
        rw [Decimal.maxInt64] at hbound
        rw [Decimal.maxWord64]
        omega
      have hwhole : wholeNumber true (n + 1) = .int (Int.negSucc n) := by
        have hsmall : ¬ Decimal.maxInt64 + 1 < ((n + 1 : Nat) : Int) := Int.not_lt.mpr hbound
        simp only [wholeNumber, Bool.not_true, Bool.false_eq_true, if_false]
        rw [if_neg (by simpa using hsmall)]
        rfl
      rw [toList_toString_negSucc, List.cons_append, readValue_minus,
        readNumber_toDigits true hfits hrest, hwhole]

/-! ## Reading back -/

theorem endsNumber_behind {c : Char} {cs : List Char} (h : c = ',' ∨ c = ']' ∨ c = '\x7d') :
    EndsNumber (c :: cs) := by
  rcases h with rfl | rfl | rfl <;> exact endsNumber_cons.mpr (by decide)

theorem endsNumber_itemsBehind (items : List Json) (rest : List Char) :
    EndsNumber (itemsBehind items ++ ']' :: rest) := by
  cases items with
  | nil => exact endsNumber_behind (.inr (.inl rfl))
  | cons item more => exact endsNumber_behind (.inl rfl)

/-- A number is ended by what stands behind it in an object. -/
theorem endsNumber_entriesBehind (entries : Entries) (rest : List Char) :
    EndsNumber (entriesBehind entries ++ '\x7d' :: rest) := by
  cases entries with
  | nil => exact endsNumber_behind (.inr (.inr rfl))
  | cons entry more => exact endsNumber_behind (.inl rfl)

theorem beginsValue_digit {c : Char} (h : c.isDigit = true) (cs : List Char) :
    BeginsValue (c :: cs) := by
  refine ⟨c, cs, rfl, isSpace_of_isDigit h, ?_⟩
  rintro rfl
  cases h

/-- The text of a value begins as one. -/
theorem beginsValue_compact {key : Option String} {v : Json} (h : Everywhere IsLegible key v) :
    BeginsValue v.compact.toList := by
  cases v with
  | null => exact ⟨_, _, rfl, by decide, by decide⟩
  | bool b => cases b <;> exact ⟨_, _, rfl, by decide, by decide⟩
  | str s =>
      rw [compact, writeScalar, toList_writeText]
      exact ⟨_, _, rfl, by decide, by decide⟩
  | arr items =>
      rw [compact, String.toList_append, String.toList_append]
      exact ⟨_, _, rfl, by decide, by decide⟩
  | obj entries =>
      rw [compact, String.toList_append, String.toList_append]
      exact ⟨_, _, rfl, by decide, by decide⟩
  | int n =>
      rw [compact, writeScalar]
      cases n with
      | ofNat n =>
          obtain ⟨d, ds, hds⟩ := List.exists_cons_of_ne_nil (Nat.toDigits_ne_nil (n := n) (b := 10))
          rw [Int.ofNat_eq_natCast, toList_toString_natCast, hds]
          exact beginsValue_digit (isDigit_of_mem_toDigits d (hds ▸ List.mem_cons_self)) ds
      | negSucc n =>
          rw [toList_toString_negSucc]
          exact ⟨_, _, rfl, by decide, by decide⟩
  | float x =>
      rw [compact, writeScalar]
      obtain ⟨c, ds, hdigit, -, htext⟩ := exists_text h
      rw [htext]
      split
      · exact ⟨_, _, rfl, by decide, by decide⟩
      · exact beginsValue_digit hdigit ds

/-- An array costs one level and is read item by item. -/
theorem readValue_arr (cs : List Char) :
    readValue (fuel + 1) (depth + 1) ('[' :: cs) = (do
      let (items, rest) ← readItems fuel depth true [] cs
      pure (.arr items, rest)) := by
  rw [readValue, skipSpace_cons (by decide)]
  rfl

/-- An object costs one level and is read entry by entry. -/
theorem readValue_obj (cs : List Char) :
    readValue (fuel + 1) (depth + 1) ('\x7b' :: cs) = (do
      let (entries, rest) ← readEntries fuel depth true [] cs
      pure (.obj entries, rest)) := by
  rw [readValue, skipSpace_cons (by decide)]
  rfl

/-- No container is read where none is allowed. -/
theorem readValue_container {c : Char} (h : c = '[' ∨ c = '\x7b') (cs : List Char) :
    readValue (fuel + 1) 0 (c :: cs) = .error .malformed := by
  rcases h with rfl | rfl
  · rw [readValue, skipSpace_cons (by decide)]
    rfl
  · rw [readValue, skipSpace_cons (by decide)]
    rfl

/-- A text is read back from its quoted form. -/
theorem readValue_str (s : String) :
    readValue (fuel + 1) depth ((writeText s).toList ++ rest) = .ok (.str s, rest) := by
  have hread := readText_writeText s rest
  rw [toList_writeText, List.cons_append, List.append_assoc, List.singleton_append, readValue,
    skipSpace_cons (by decide)]
  generalize s.toList.flatMap escapeChar ++ '"' :: rest = quoted at hread ⊢
  simp [hread, bind, Except.bind, pure, Except.pure]

/-- No value is written as nothing. -/
theorem length_compact_pos {key : Option String} {v : Json} (h : Everywhere IsLegible key v) :
    0 < v.compact.toList.length := by
  obtain ⟨c, more, heq, -, -⟩ := beginsValue_compact h
  rw [heq]
  exact Nat.succ_pos _

/-- Two parts are read one after the other when neither is too high. -/
theorem bind_fits {α β : Type} {low high depth : Nat} {a : α} {b : β}
    {next : α → Except Failure β}
    (h : next a = if high ≤ depth then .ok b else .error .malformed) :
    ((if low ≤ depth then .ok a else .error .malformed) >>= next) =
      if max low high ≤ depth then .ok b else .error .malformed := by
  by_cases hlow : low ≤ depth
  · rw [if_pos hlow]
    change next a = _
    rw [h]
    simp only [Nat.max_le, hlow, true_and]
  · rw [if_neg hlow, if_neg fun hmax => hlow (Nat.max_le.mp hmax).1]
    rfl

/-- A container is wrapped around what has been read inside it. -/
theorem bind_wrap {α : Type} {height depth : Nat} {inside : α} (wrap : α → Json) :
    ((if height ≤ depth then Except.ok (inside, rest) else .error Failure.malformed) >>=
        fun read => pure (wrap read.1, read.2)) =
      if height + 1 ≤ depth + 1 then .ok (wrap inside, rest) else .error .malformed := by
  simp only [Nat.add_le_add_iff_right]
  split <;> rfl

mutual

/-- A value is read from its text, given fuel for its characters, or refused for its height. -/
theorem readValue_compact : ∀ (v : Json) {key : Option String} {fuel depth : Nat}
    {rest : List Char}, Everywhere IsLegible key v → 2 * v.compact.toList.length ≤ fuel →
    EndsNumber rest →
    readValue fuel depth (v.compact.toList ++ rest) =
      if v.height ≤ depth then .ok (v.mapFloats reread, rest) else .error .malformed
  | v, _, 0, _, _ => by
      intro h hfuel _
      have hpos := length_compact_pos h
      omega
  | .null, _, fuel + 1, depth, rest => by
      intro _ _ _
      refine Eq.trans ?_ (if_pos (Nat.zero_le depth)).symm
      change readValue (fuel + 1) depth ('n' :: 'u' :: 'l' :: 'l' :: rest) = _
      rw [readValue, skipSpace_cons (by decide)]
      rfl
  | .bool false, _, fuel + 1, depth, rest => by
      intro _ _ _
      refine Eq.trans ?_ (if_pos (Nat.zero_le depth)).symm
      change readValue (fuel + 1) depth ('f' :: 'a' :: 'l' :: 's' :: 'e' :: rest) = _
      rw [readValue, skipSpace_cons (by decide)]
      rfl
  | .bool true, _, fuel + 1, depth, rest => by
      intro _ _ _
      refine Eq.trans ?_ (if_pos (Nat.zero_le depth)).symm
      change readValue (fuel + 1) depth ('t' :: 'r' :: 'u' :: 'e' :: rest) = _
      rw [readValue, skipSpace_cons (by decide)]
      rfl
  | .int _, _, _ + 1, depth, _ => fun h _ hrest =>
      (readValue_int h hrest).trans (if_pos (Nat.zero_le depth)).symm
  | .float _, _, _ + 1, depth, _ => fun h _ hrest =>
      (readValue_float h hrest).trans (if_pos (Nat.zero_le depth)).symm
  | .str s, _, _ + 1, depth, _ => fun _ _ _ =>
      (readValue_str s).trans (if_pos (Nat.zero_le depth)).symm
  | .arr items, _, fuel + 1, depth, rest => by
      rintro ⟨-, hitems⟩ hfuel -
      have htext : (Json.arr items).compact.toList ++ rest =
          '[' :: ((compactItems items).toList ++ ']' :: rest) := by
        simp [compact]
      have hlength : (Json.arr items).compact.toList.length =
          (compactItems items).toList.length + 2 := by
        simp [compact]
      rw [htext, height]
      cases depth with
      | zero => exact readValue_container (.inl rfl) _
      | succ depth =>
          rw [readValue_arr, readItems_compact items hitems (by omega), mapFloats]
          exact bind_wrap Json.arr
  | .obj entries, _, fuel + 1, depth, rest => by
      rintro ⟨-, hentries⟩ hfuel -
      have htext : (Json.obj entries).compact.toList ++ rest =
          '\x7b' :: ((compactEntries entries).toList ++ '\x7d' :: rest) := by
        simp [compact]
      have hlength : (Json.obj entries).compact.toList.length =
          (compactEntries entries).toList.length + 2 := by
        simp [compact]
      rw [htext, height]
      cases depth with
      | zero => exact readValue_container (.inr rfl) _
      | succ depth =>
          rw [readValue_obj, readEntries_compact entries hentries (by omega), mapFloats]
          exact bind_wrap Json.obj

theorem readItems_compact : ∀ (items : List Json) {fuel depth : Nat} {rest : List Char},
    EveryItem IsLegible items → 2 * (compactItems items).toList.length < fuel →
    readItems fuel depth true [] ((compactItems items).toList ++ ']' :: rest) =
      if heightItems items ≤ depth then .ok (mapItems reread items, rest) else .error .malformed
  | [], _ + 1, depth, _, _, _ =>
      (readItems_nil true []).trans (if_pos (Nat.zero_le depth)).symm
  | item :: more, fuel + 1, depth, rest, ⟨hitem, hmore⟩, hfuel => by
      rw [toList_compactItems, List.length_append] at hfuel
      have hpos := length_compact_pos hitem
      rw [toList_compactItems, List.append_assoc,
        readItems_first ((beginsValue_compact hitem).append _),
        readValue_compact item hitem (by omega) (endsNumber_itemsBehind more rest), heightItems]
      exact bind_fits (readItems_behind more hmore (by omega))

theorem readItems_behind : ∀ (items : List Json) {fuel depth : Nat} {done : List Json}
    {rest : List Char}, EveryItem IsLegible items → 2 * (itemsBehind items).length < fuel →
    readItems fuel depth false done (itemsBehind items ++ ']' :: rest) =
      if heightItems items ≤ depth then .ok (done.reverse ++ mapItems reread items, rest)
      else .error .malformed
  | [], fuel + 1, depth, done, rest, _, _ => by
      rw [heightItems, if_pos (Nat.zero_le _), mapItems, List.append_nil]
      exact readItems_nil false done
  | item :: more, fuel + 1, depth, done, rest, ⟨hitem, hmore⟩, hfuel => by
      have htext : itemsBehind (item :: more) ++ ']' :: rest =
          ',' :: (item.compact.toList ++ (itemsBehind more ++ ']' :: rest)) := by
        simp [itemsBehind]
      have hlength : (itemsBehind (item :: more)).length =
          item.compact.toList.length + (itemsBehind more).length + 1 := by
        simp [itemsBehind]
      rw [htext, readItems_next ((beginsValue_compact hitem).append _),
        readValue_compact item hitem (by omega) (endsNumber_itemsBehind more rest), heightItems]
      refine bind_fits ?_
      have hread := @readItems_behind more fuel depth (item.mapFloats reread :: done) rest hmore (by omega)
      rwa [List.reverse_cons, List.append_assoc, List.singleton_append] at hread

theorem readEntries_compact : ∀ (entries : Entries) {fuel depth : Nat} {rest : List Char},
    EveryEntry IsLegible entries → 2 * (compactEntries entries).toList.length < fuel →
    readEntries fuel depth true [] ((compactEntries entries).toList ++ '\x7d' :: rest) =
      if heightEntries entries ≤ depth then .ok (mapEntries reread entries, rest)
      else .error .malformed
  | [], _ + 1, depth, _, _, _ =>
      (readEntries_nil true []).trans (if_pos (Nat.zero_le depth)).symm
  | (key, value) :: more, fuel + 1, depth, rest, ⟨hvalue, hmore⟩, hfuel => by
      rw [toList_compactEntries, length_keyText, List.length_append] at hfuel
      rw [toList_compactEntries, keyText_append, List.append_assoc, readEntries_first,
        readValue_compact value hvalue (by omega) (endsNumber_entriesBehind more rest),
        heightEntries]
      exact bind_fits (readEntries_behind more hmore (by omega))

theorem readEntries_behind : ∀ (entries : Entries) {fuel depth : Nat} {done : Entries}
    {rest : List Char}, EveryEntry IsLegible entries → 2 * (entriesBehind entries).length < fuel →
    readEntries fuel depth false done (entriesBehind entries ++ '\x7d' :: rest) =
      if heightEntries entries ≤ depth then .ok (done.reverse ++ mapEntries reread entries, rest)
      else .error .malformed
  | [], fuel + 1, depth, done, rest, _, _ => by
      rw [heightEntries, if_pos (Nat.zero_le _), mapEntries, List.append_nil]
      exact readEntries_nil false done
  | (key, value) :: more, fuel + 1, depth, done, rest, ⟨hvalue, hmore⟩, hfuel => by
      have htext : entriesBehind ((key, value) :: more) ++ '\x7d' :: rest =
          ',' :: keyText key (value.compact.toList ++ (entriesBehind more ++ '\x7d' :: rest)) := by
        simp [entriesBehind, keyText]
      have hlength : value.compact.toList.length + (entriesBehind more).length <
          (entriesBehind ((key, value) :: more)).length := by
        simp [entriesBehind, keyText]
        omega
      rw [htext, readEntries_next, readValue_compact value hvalue (by omega)
        (endsNumber_entriesBehind more rest), heightEntries]
      refine bind_fits ?_
      have hread := @readEntries_behind more fuel depth
        ((key, value.mapFloats reread) :: done) rest hmore (by omega)
      rwa [List.reverse_cons, List.append_assoc, List.singleton_append] at hread

end

/-- The compact text of a legible value is read as the value, but for doubles that are read as
others; it is refused when containers are nested too deep. -/
theorem read_compact {v : Json} (h : Everywhere IsLegible none v) :
    read v.compact =
      if v.height ≤ maxDepth then .ok (v.mapFloats reread) else .error .malformed := by
  have hread := @readValue_compact v none (2 * v.compact.toList.length + 2) maxDepth [] h
    (by omega) endsNumber_nil
  rw [List.append_nil] at hread
  simp only [read, readWithin, readFront, hread]
  split <;> rfl

end TaskDiagram.Json
