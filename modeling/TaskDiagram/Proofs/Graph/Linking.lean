import TaskDiagram.Grammar.Standard
import TaskDiagram.Proofs.Graph.Subtrees
import TaskDiagram.Proofs.Json.Results

/-! # Linking

A link is made exactly when it keeps the diagram a forest that the grammar accepts, and changes
nothing but its two ends and the roots. A new link lets one reach through it and opens no other
way, so of two links that are made one after the other neither stands in the way of the other:
links that can be made in one order can be made in any, and the order leaves no trace.
-/

namespace TaskDiagram

/-- Different sockets are filled independently. -/
theorem Sockets.set_comm {α : Type} (s : Sockets α) {socket other : SocketName}
    (hne : other ≠ socket) (content content' : Option α) :
    (s.set content socket).set content' other = (s.set content' other).set content socket := by
  refine ext_get? fun place => ?_
  simp only [get?_set]
  by_cases hplace : place = other
  · simp [hplace, hne]
  · simp [hplace]

namespace Graph

variable {g g' : Graph} {parent child other below top id : BlockId} {socket place : SocketName}

/-! ## What a link needs and does -/

theorem IsForest.apart_iff (h : g.IsForest) :
    g.isAncestor child parent = false ↔ ¬ g.Reaches child parent := by
  rw [← h.isAncestor_iff_reaches, Bool.not_eq_true]

theorem IsForest.exists_connect_iff (h : g.IsForest) :
    (∃ g', g.connect parent socket child = .ok g') ↔
      g.Live parent ∧ g.Live child ∧
        (∃ p c, g.kind? parent = some p ∧ g.kind? child = some c ∧
          g.grammar.accepts p socket c = true) ∧
        g.parent? child = none ∧ g.child? parent socket = none ∧ ¬ g.Reaches child parent := by
  constructor
  · rintro ⟨g', hg'⟩
    obtain ⟨hplug, -⟩ := connect_eq_ok_iff.mp hg'
    obtain ⟨p, c, hp, hc, haccepts⟩ := hplug.accepted
    exact ⟨live_of_kind? hp, live_of_kind? hc, ⟨p, c, hp, hc, haccepts⟩, hplug.loose, hplug.free,
      h.apart_iff.mp hplug.apart⟩
  · rintro ⟨-, -, haccepts, hloose, hfree, hapart⟩
    exact ⟨_, connect_eq_ok_iff.mpr ⟨⟨haccepts, hloose, hfree, h.apart_iff.mpr hapart⟩, rfl⟩⟩

/-- `g'` is `g` with one link more, and nothing else is different. -/
structure Linked (g g' : Graph) (link : Link) : Prop where
  grammar : g'.grammar = g.grammar
  nextId : g'.nextId = g.nextId
  pinned : g'.pinned = g.pinned
  /-- Every block keeps its kind, its fields and its coordinates. -/
  contents : ∀ id, (g'.block? id).map (fun b => (b.kind, b.fields, b.position)) =
    (g.block? id).map fun b => (b.kind, b.fields, b.position)
  links : ∀ id place, g'.child? id place =
    if id = link.parent ∧ place = link.socket then some link.child else g.child? id place
  parents : ∀ id, g'.parent? id =
    if id = link.child then some (link.parent, link.socket) else g.parent? id
  root : link.child ∈ g.roots
  /-- The other roots keep their order. -/
  roots : g'.roots = g.roots.erase link.child

theorem IsForest.linked_plug (h : g.IsForest) (hplug : g.Pluggable parent socket child) :
    g.Linked (g.plug parent socket child) ⟨parent, socket, child⟩ where
  grammar := grammar_relink ..
  nextId := nextId_relink ..
  pinned := pinned_relink ..
  contents id := by
    rw [Graph.plug, block?_relink, Option.map_map]
    rfl
  links := hplug.child?_plug
  parents := hplug.parent?_plug
  root := by
    obtain ⟨p, c, -, hc, -⟩ := hplug.accepted
    exact h.mem_roots.mpr ⟨live_of_kind? hc, hplug.loose⟩
  roots := (h.roots_nodup.erase_eq_filter child).symm

/-- A link is made exactly when its blocks are there, the socket accepts the child, the child is in
no socket, the socket is free, and the parent is not in the subtree of the child. Then nothing else
changes, and when the link is refused nothing does. -/
theorem connect_refuses_breaking_links_only (grammar : Grammar) (edits : List GraphEdit)
    (parent : BlockId) (socket : SocketName) (child : BlockId) :
    let g := (empty grammar).run edits
    ((∃ g', g.connect parent socket child = .ok g') ↔
      g.Live parent ∧ g.Live child ∧
        (∃ p c, g.kind? parent = some p ∧ g.kind? child = some c ∧
          grammar.accepts p socket c = true) ∧
        g.parent? child = none ∧ g.child? parent socket = none ∧ ¬ g.Reaches child parent) ∧
    (∀ g', g.connect parent socket child = .ok g' → g.Linked g' ⟨parent, socket, child⟩) ∧
    ∀ cause, g.connect parent socket child = .error cause →
      g.edit (.connect parent socket child) = g := by
  intro g
  have h : g.IsForest := (isForest_empty grammar).run edits
  have hgrammar : g.grammar = grammar := grammar_run (empty grammar) edits
  refine ⟨hgrammar ▸ h.exists_connect_iff, fun g' hg' => ?_, fun cause hcause => ?_⟩
  · obtain ⟨hplug, rfl⟩ := connect_eq_ok_iff.mp hg'
    exact h.linked_plug hplug
  · rw [edit, hcause]
    rfl

/-! ## Two links -/

/-- A new link adds one step down. -/
theorem Pluggable.linksTo_plug (hplug : g.Pluggable parent socket child) :
    (g.plug parent socket child).LinksTo other below ↔
      g.LinksTo other below ∨ (other = parent ∧ below = child) := by
  simp only [LinksTo, hplug.child?_plug]
  constructor
  · rintro ⟨place, hc⟩
    split at hc
    next hsame => exact .inr ⟨hsame.1, (Option.some.inj hc).symm⟩
    next => exact .inl ⟨place, hc⟩
  · rintro (⟨place, hc⟩ | ⟨rfl, rfl⟩)
    · -- The socket of the new link was free, so the old link sits elsewhere.
      have hapart : ¬ (other = parent ∧ place = socket) := by
        rintro ⟨rfl, rfl⟩
        rw [hplug.free] at hc
        cases hc
      exact ⟨place, by rw [if_neg hapart, hc]⟩
    · exact ⟨socket, if_pos ⟨rfl, rfl⟩⟩

/-- What is reached after a link was reached before, or is reached through the link. -/
theorem Pluggable.reaches_plug (hplug : g.Pluggable parent socket child) :
    (g.plug parent socket child).Reaches top id ↔
      g.Reaches top id ∨ (g.Reaches top parent ∧ g.Reaches child id) := by
  have hold : ∀ {a b}, g.Reaches a b → (g.plug parent socket child).Reaches a b := by
    intro a b hreach
    exact Relation.ReflTransGen.mono (fun _ _ hlink => hplug.linksTo_plug.mpr (.inl hlink)) _ _
      hreach
  constructor
  · intro hreach
    induction hreach with
    | refl => exact .inl .refl
    | tail _ hlink ih =>
        rcases hplug.linksTo_plug.mp hlink with hlink | ⟨rfl, rfl⟩
        · exact ih.imp (·.tail hlink) fun ⟨hup, hdown⟩ => ⟨hup, hdown.tail hlink⟩
        · exact .inr ⟨ih.elim (fun hup => hup) And.left, .refl⟩
  · rintro (hreach | ⟨hup, hdown⟩)
    · exact hold hreach
    · have hlink := hplug.linksTo_plug.mpr (.inr ⟨rfl, rfl⟩)
      exact ((hold hup).tail hlink).trans (hold hdown)

section Two

variable (hfirst : g.Pluggable parent socket child)
  (hsecond : (g.plug parent socket child).Pluggable other place below)

include hfirst hsecond

/-- A block that is in a socket already is not linked again. -/
theorem Pluggable.child_ne : below ≠ child := by
  rintro rfl
  have hloose := hsecond.loose
  rw [hfirst.parent?_plug, if_pos rfl] at hloose
  cases hloose

theorem Pluggable.socket_ne : ¬ (other = parent ∧ place = socket) := by
  intro hsame
  have hfree := hsecond.free
  rw [hfirst.child?_plug, if_pos hsame] at hfree
  cases hfree

/-- The second of two links can be made first. -/
theorem IsForest.pluggable_first (h : g.IsForest) : g.Pluggable other place below where
  accepted := by simpa only [Graph.plug, kind?_relink, grammar_relink] using hsecond.accepted
  loose := by
    have hloose := hsecond.loose
    rwa [hfirst.parent?_plug, if_neg (hfirst.child_ne hsecond)] at hloose
  free := by
    have hfree := hsecond.free
    rwa [hfirst.child?_plug, if_neg (hfirst.socket_ne hsecond)] at hfree
  apart := by
    have hapart := (h.plug hfirst).apart_iff.mp hsecond.apart
    rw [hfirst.reaches_plug, not_or] at hapart
    exact h.apart_iff.mpr hapart.1

/-- The first of two links can be made after the second: were its child above its parent by way of
the second link, then the child of the second would have been above its parent by way of the
first. -/
theorem IsForest.pluggable_second (h : g.IsForest) :
    (g.plug other place below).Pluggable parent socket child := by
  have hback := h.pluggable_first hfirst hsecond
  refine ⟨?_, ?_, ?_, ?_⟩
  · simpa only [Graph.plug, kind?_relink, grammar_relink] using hfirst.accepted
  · rw [hback.parent?_plug, if_neg (hfirst.child_ne hsecond).symm, hfirst.loose]
  · have hne : ¬ (parent = other ∧ socket = place) := fun hsame =>
      hfirst.socket_ne hsecond ⟨hsame.1.symm, hsame.2.symm⟩
    rw [hback.child?_plug, if_neg hne, hfirst.free]
  · have hapart := (h.plug hfirst).apart_iff.mp hsecond.apart
    rw [hfirst.reaches_plug, not_or] at hapart
    rw [(h.plug hback).apart_iff, hback.reaches_plug]
    rintro (hreach | ⟨hup, hdown⟩)
    · exact h.apart_iff.mp hfirst.apart hreach
    · exact hapart.2 ⟨hdown, hup⟩

theorem Pluggable.plug_comm :
    (g.plug parent socket child).plug other place below =
      (g.plug other place below).plug parent socket child := by
  have hchild := hfirst.child_ne hsecond
  have hsocket := hfirst.socket_ne hsecond
  refine eq_of_block? ?_ ?_ (fun id => ?_) ?_ ?_
  · simp only [plug, grammar_relink]
  · simp only [plug, nextId_relink]
  · simp only [plug, block?_relink, Option.map_map]
    congr 1
    funext b
    -- The links are apart: neither the sockets nor the children are the same.
    dsimp only [Function.comp]
    congr 1
    · by_cases hother : id = other
      · by_cases hparent : id = parent
        · have hplace : place ≠ socket := fun hplace =>
            hsocket ⟨hother.symm.trans hparent, hplace⟩
          rw [if_pos hother, if_pos hparent, if_pos hparent, if_pos hother,
            b.inputs.set_comm hplace]
        · rw [if_pos hother, if_neg hparent, if_neg hparent, if_pos hother]
      · simp only [if_neg hother]
    · by_cases hbelow : id = below
      · rw [if_pos hbelow, if_neg (hbelow.trans_ne hchild), if_pos hbelow]
      · simp only [if_neg hbelow]
  · simp only [plug, roots_relink, List.filter_filter, Bool.and_comm]
  · simp only [plug, pinned_relink]

end Two

/-! ## Links in sequence -/

/-- The diagram after links in sequence, if each of them is made. -/
def connectAll (g : Graph) (links : List Link) : Except GraphError Graph :=
  links.foldlM (fun g link => g.connect link.parent link.socket link.child) g

theorem connectAll_cons_eq_ok_iff {link : Link} {rest : List Link} :
    g.connectAll (link :: rest) = .ok g' ↔ g.Pluggable link.parent link.socket link.child ∧
      (g.plug link.parent link.socket link.child).connectAll rest = .ok g' := by
  rw [connectAll, List.foldlM_cons]
  constructor
  · intro hok
    obtain ⟨after, hlink, hrest⟩ := Except.of_bind_eq_ok hok
    obtain ⟨hplug, rfl⟩ := connect_eq_ok_iff.mp hlink
    exact ⟨hplug, hrest⟩
  · rintro ⟨hplug, hrest⟩
    rw [connect_eq_ok_iff.mpr ⟨hplug, rfl⟩]
    exact hrest

theorem IsForest.connectAll_perm (h : g.IsForest) {links links' : List Link}
    (hperm : links.Perm links') (hok : g.connectAll links = .ok g') :
    g.connectAll links' = .ok g' := by
  induction hperm generalizing g with
  | nil => exact hok
  | cons link _ ih =>
      rw [connectAll_cons_eq_ok_iff] at hok ⊢
      exact ⟨hok.1, ih (h.plug hok.1) hok.2⟩
  | swap second first rest =>
      -- Exchanging two neighbours leads to one diagram, from which the rest goes on as before.
      simp only [connectAll_cons_eq_ok_iff] at hok ⊢
      obtain ⟨hfirst, hsecond, hrest⟩ := hok
      exact ⟨h.pluggable_first hfirst hsecond, h.pluggable_second hfirst hsecond,
        hfirst.plug_comm hsecond ▸ hrest⟩
  | trans _ _ ih ih' => exact ih' h (ih h hok)

/-- Links that can be made in some order after any edits can be made in every order, and always
lead to the same diagram. -/
theorem links_in_any_order (grammar : Grammar) (edits : List GraphEdit) {links links' : List Link}
    (hperm : links.Perm links') {g' : Graph}
    (hok : ((empty grammar).run edits).connectAll links = .ok g') :
    ((empty grammar).run edits).connectAll links' = .ok g' :=
  ((isForest_empty grammar).run edits).connectAll_perm hperm hok

/-- Three loops behind one another with a step in the last, linked from the front and from the
back. -/
theorem loops_linked_from_both_ends :
    let g := (empty .standard).run [.insert .loop, .insert .loop, .insert .loop, .insert .pick]
    let links : List Link := [⟨0, .next, 1⟩, ⟨1, .next, 2⟩, ⟨2, .body, 3⟩]
    ∃ g', links.Perm links.reverse ∧ g.connectAll links = .ok g' ∧
      g.connectAll links.reverse = .ok g' := by
  intro g links
  have hmade : (g.connectAll links).isOk = true := by decide
  have hperm : links.Perm links.reverse := (List.reverse_perm links).symm
  cases hok : g.connectAll links with
  | error cause =>
      rw [hok] at hmade
      cases hmade
  | ok g' => exact ⟨g', hperm, rfl, links_in_any_order .standard _ hperm hok⟩

end Graph

end TaskDiagram
