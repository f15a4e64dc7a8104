import TaskDiagram.Proofs.Graph.Pairing
import TaskDiagram.Proofs.Graph.Resemblance
import TaskDiagram.Proofs.TextMap

/-! # Isomorphic diagrams

Values that are texts or whole numbers of 64 bits are equal when they are read alike.
Trees that hold no others are found the same exactly when they are equal, so diagrams
of the same structure whose fields hold no others are isomorphic.
-/

namespace TaskDiagram

/-- Texts, and numbers kept as whole numbers. -/
def FieldValue.Exact : FieldValue → Prop
  | int _ => True
  | text _ => True
  | _ => False

theorem FieldValue.Exact.beq_iff {v w : FieldValue} (h : v.Exact) : (v == w) = true ↔ v = w := by
  rw [beq_def]
  cases v with
  | float => cases h
  | bool => cases h
  | int n => cases w <;> simp [beq]
  | text s => cases w <;> simp [beq]

/-- Exact values that are read alike are equal. -/
theorem FieldValue.Exact.eq_of_read {v w : FieldValue} (hv : v.Exact) (hw : w.Exact)
    (htext : v.asText = w.asText) (hint : v.asInt = w.asInt) : v = w := by
  cases v with
  | float => cases hv
  | bool => cases hv
  | int n =>
      cases w with
      | float => cases hw
      | bool => cases hw
      | int m => exact congrArg int (Option.some.inj hint)
      | text => cases hint
  | text s =>
      cases w with
      | float => cases hw
      | bool => cases hw
      | int => cases htext
      | text s' => exact congrArg text (Option.some.inj htext)

/-- Fields that hold nothing but exact values. -/
def FieldMap.Exact (fields : FieldMap) : Prop :=
  ∀ name value, fields.get? name = some value → value.Exact

namespace FieldMap

theorem exact_empty : Exact .empty := nofun

theorem Exact.insert {fields : FieldMap} (h : fields.Exact) {name : String} {value : FieldValue}
    (hvalue : value.Exact) : Exact (fields.insert name value) := by
  intro other found hfound
  rw [TextMap.get?_insert] at hfound
  split at hfound
  · exact Option.some.inj hfound ▸ hvalue
  · exact h other found hfound

/-- Exact fields that are read alike are equal. -/
theorem Alike.eq_of_exact {a b : FieldMap} (h : a.Alike b) (ha : a.Exact) (hb : b.Exact) :
    a = b := by
  refine TextMap.ext_get? fun name => ?_
  obtain ⟨hsome, htext, hint⟩ := h name
  cases hv : a.get? name with
  | none =>
      rw [hv] at hsome
      have hnone : b.get? name = none := by simpa using hsome.symm
      exact hnone.symm
  | some v =>
      rw [hv] at hsome htext hint
      obtain ⟨w, hw⟩ := Option.isSome_iff_exists.mp hsome.symm
      rw [hw] at htext hint ⊢
      exact congrArg some ((ha name v hv).eq_of_read (hb name w hw) htext hint)

/-- Exact fields are found the same when they are equal. -/
theorem same_iff {a b : FieldMap} (ha : a.Exact) : a.same b = true ↔ a = b := by
  have hentries : ∀ left right : List (String × FieldValue), (∀ entry ∈ left, entry.2.Exact) →
      ((left == right) = true ↔ left = right) := by
    intro left
    induction left with
    | nil => intro right _; cases right <;> simp
    | cons entry rest ih =>
        intro right hexact
        cases right with
        | nil => simp
        | cons entry' rest' =>
            obtain ⟨name, value⟩ := entry
            obtain ⟨name', value'⟩ := entry'
            have hvalue := (hexact _ List.mem_cons_self).beq_iff (w := value')
            have hrest := ih rest' fun entry hentry => hexact entry (List.mem_cons_of_mem _ hentry)
            have hpair : ((name, value) == (name', value')) = (name == name' && value == value') :=
              rfl
            rw [List.cons_beq_cons, hpair, Bool.and_eq_true, Bool.and_eq_true, beq_iff_eq, hvalue,
              hrest, List.cons.injEq, Prod.mk.injEq]
  have hexact : ∀ entry ∈ a.entries, entry.2.Exact := by
    rintro ⟨name, value⟩ hentry
    exact ha name value ((mem_iff_findValue? a.increasing name value).mp hentry)
  rw [FieldMap.same, hentries a.entries b.entries hexact, TextMap.ext_iff]

end FieldMap

namespace Tree

/-- Trees that hold nothing but exact values. -/
inductive Exact : Tree → Prop
  | node {kind : BlockKind} {fields : FieldMap} {inputs : List (SocketName × Tree)}
      (hfields : fields.Exact) (hinputs : ∀ entry ∈ inputs, Exact entry.2) :
      Exact (.node kind fields inputs)

theorem Exact.fields {t : Tree} (h : t.Exact) : t.fields.Exact := by
  cases h with
  | node hfields => exact hfields

theorem Exact.child? {t u : Tree} (h : t.Exact) {socket : SocketName}
    (hu : t.child? socket = some u) : u.Exact := by
  cases h with
  | node _ hinputs =>
      obtain ⟨entry, hentry, rfl⟩ := Option.map_eq_some_iff.mp hu
      exact hinputs entry (List.mem_of_find?_eq_some hentry)

/-- What is put together from exact trees is exact. -/
theorem Exact.plug {t : Tree} (h : t.Exact) (socket : SocketName) {content : Option Tree}
    (hcontent : ∀ u ∈ content, u.Exact) : (t.plug socket content).Exact := by
  cases h with
  | node hfields hinputs =>
      refine .node hfields fun entry hentry => ?_
      rcases List.mem_append.mp hentry with hentry | hentry
      · exact hinputs entry hentry
      · obtain ⟨u, hu, rfl⟩ : ∃ u, content = some u ∧ (socket, u) = entry := by
          simpa [inSocket] using hentry
        exact hcontent u hu

/-- Exact trees are found the same as their like only. -/
theorem Exact.same_iff {t : Tree} (h : t.Exact) (u : Tree) : t.same u = true ↔ t = u := by
  induction h generalizing u with
  | node hfields _ ih =>
      rename_i kind fields inputs _
      obtain ⟨kind', fields', inputs'⟩ := u
      have hlist : ∀ left right : List (SocketName × Tree),
          (∀ entry ∈ left, ∀ u, entry.2.same u = true ↔ entry.2 = u) →
          (sameList left right = true ↔ left = right) := by
        intro left
        induction left with
        | nil => intro right _; cases right <;> simp [sameList]
        | cons entry rest ihRest =>
            intro right hsame
            cases right with
            | nil => simp [sameList]
            | cons entry' rest' =>
                obtain ⟨socket, tree⟩ := entry
                obtain ⟨socket', tree'⟩ := entry'
                have htree := hsame _ List.mem_cons_self tree'
                have hrest := ihRest rest' fun entry hentry =>
                  hsame entry (List.mem_cons_of_mem _ hentry)
                simp [sameList, htree, hrest]
      rw [same, Bool.and_eq_true, Bool.and_eq_true, beq_iff_eq, FieldMap.same_iff hfields,
        hlist inputs inputs' ih, node.injEq, and_assoc]

/-- Exact trees are the same one for one when the lists are equal. -/
theorem forall₂_same_iff {ts us : List Tree} (hexact : ∀ t ∈ ts, t.Exact) :
    List.Forall₂ (fun t u => t.same u = true) ts us ↔ ts = us := by
  induction ts generalizing us with
  | nil => rw [List.forall₂_nil_left_iff, eq_comm]
  | cons t ts ih =>
      obtain ⟨ht, hts⟩ := List.forall_mem_cons.mp hexact
      cases us with
      | nil => simp
      | cons u us => rw [List.forall₂_cons, ht.same_iff, ih hts, List.cons.injEq]

/-- Exact trees are found the same in any order, and no others are. -/
theorem sameForest_iff_perm {ts us : List Tree} (hexact : ∀ t ∈ ts, t.Exact) :
    sameForest ts us = true ↔ ts.Perm us := by
  simp [sameForest_iff, forall₂_same_iff hexact]

end Tree

namespace Graph

variable {g g' : Graph} {f : BlockId → BlockId}

/-- Every block holds nothing but exact values. -/
def ExactFields (g : Graph) : Prop := ∀ id b, g.block? id = some b → b.fields.Exact

/-- The trees of a diagram are exact when its fields are. -/
theorem exact_of_tree? (h : g.ExactFields) {depth : Nat} {id : BlockId} {t : Tree}
    (ht : g.tree? depth id = some t) : t.Exact := by
  induction depth generalizing id t with
  | zero => cases ht
  | succ depth ih =>
      obtain ⟨b, hb, rfl⟩ := Option.map_eq_some_iff.mp ht
      refine .node (h id b hb) fun entry hentry => ?_
      obtain ⟨link, -, hlink⟩ := List.mem_filterMap.mp hentry
      obtain ⟨u, hu, rfl⟩ := Option.map_eq_some_iff.mp hlink
      exact ih hu

/-- A diagram whose trees are exact is exact. -/
theorem IsForest.exactFields (hg : g.IsForest) (hforest : ∀ t ∈ g.forest, t.Exact) :
    g.ExactFields := by
  intro id b hb
  have hlive : g.Live id := by rw [Live, hb]; rfl
  have hshown : ∃ t, g.Shows 0 g.nextId t id ∧ t.Exact := by
    refine hg.forall_live (P := fun id => ∃ t, g.Shows 0 g.nextId t id ∧ t.Exact)
      (fun root hroot => ?_) (fun parent socket child => ?_) hlive
    · obtain ⟨i, hi⟩ := List.getElem?_of_mem hroot
      obtain ⟨t, ht, hshows⟩ := getElem?_of_forall₂ hg.forall₂_forest hi
      exact ⟨t, hshows, hforest t (List.mem_of_getElem? ht)⟩
    · rintro ⟨t, hshows, hexact⟩ hc
      have hrel := hshows.child? socket
      rw [hc] at hrel
      obtain ⟨u, hu, hchild⟩ := exists_of_rel_right hrel
      exact ⟨u, hchild, hexact.child? hu⟩
  obtain ⟨t, hshows, hexact⟩ := hshown
  obtain ⟨b', hb', -, hfields⟩ := hshows.block
  obtain rfl := Option.some.inj (hb.symm.trans hb')
  exact hfields ▸ hexact.fields

namespace SameStructure

/-- Trees of the same structure with the same fields are equal. -/
theorem tree?_eq (h : g.SameStructure g' f) (hg : g.IsForest) (hexact : g.ExactFields)
    (hexact' : g'.ExactFields) {depth : Nat} {id : BlockId} (hid : g.Live id) :
    g'.tree? depth (f id) = g.tree? depth id := by
  induction depth generalizing id with
  | zero => rfl
  | succ depth ih =>
      obtain ⟨b, hb⟩ := Option.isSome_iff_exists.mp hid
      obtain ⟨b', hb'⟩ := Option.isSome_iff_exists.mp (h.bijOn.mapsTo hid)
      have hkind : b'.kind = b.kind := by simpa [kind?, hb, hb'] using h.kind id hid
      have hfields : b'.fields = b.fields :=
        ((h.fields id b b' hb hb').eq_of_exact (hexact id b hb) (hexact' _ b' hb')).symm
      have hinputs : b'.inputs.toList = b.inputs.toList.map fun entry => (entry.1, f entry.2) := by
        unfold Sockets.toList
        rw [List.map_filterMap]
        apply List.filterMap_congr
        intro socket _
        have hlink := h.links id hid socket
        rw [Graph.child?, Graph.child?, hb, hb', Option.bind_some, Option.bind_some] at hlink
        rw [hlink]
        cases b.inputs.get? socket <;> rfl
      rw [tree?, tree?, hb, hb', Option.map_some, Option.map_some, hkind, hfields, hinputs,
        List.filterMap_map]
      congr 2
      apply List.filterMap_congr
      intro entry hentry
      have hc : g.child? id entry.1 = some entry.2 := by
        rw [Graph.child?, hb]
        exact Sockets.mem_toList.mp hentry
      exact congrArg (Option.map (entry.1, ·)) (ih (hg.live_child hc))

/-- Diagrams of the same structure are isomorphic when numbers are kept as whole numbers. -/
theorem isIsomorphic (h : g.SameStructure g' f) (hg : g.IsForest) (hg' : g'.IsForest)
    (hexact : g.ExactFields) (hexact' : g'.ExactFields) : g.isIsomorphic g' = true := by
  refine (Tree.sameForest_iff_perm fun t ht => ?_).mpr ?_
  · obtain ⟨root, -, hroot⟩ := List.mem_filterMap.mp ht
    exact exact_of_tree? hexact hroot
  · have hmap : g.roots.filterMap (g.tree? g.nextId) =
        (g.roots.map f).filterMap (g'.tree? g'.nextId) := by
      rw [List.filterMap_map]
      apply List.filterMap_congr
      intro root hroot
      have hid := (hg.mem_roots.mp hroot).1
      rw [← hg.tree?_of_le hid (Nat.le_max_left g.nextId g'.nextId), Function.comp_apply,
        ← hg'.tree?_of_le (h.bijOn.mapsTo hid) (Nat.le_max_right g.nextId g'.nextId)]
      exact (h.tree?_eq hg hexact hexact' hid).symm
    rw [forest, hmap]
    exact (h.corresponds.perm_roots hg hg').filterMap _

end SameStructure

end Graph

end TaskDiagram
