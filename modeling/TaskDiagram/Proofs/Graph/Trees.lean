import Mathlib.Data.List.Forall2
import TaskDiagram.Graph.Tree
import TaskDiagram.Proofs.Graph.Walks

/-! # The trees of a diagram

`Shows` relates a block to the tree under it. The relation names the range of ids the
tree occupies, so a tree stays shown while a diagram changes outside of that range. In
a forest every block shows exactly one tree, and a chain of blocks shows the links of
the chain of its tree.
-/

namespace TaskDiagram

namespace SocketName

/-- The place of a socket in the order of all. -/
def index (socket : SocketName) : Nat := all.idxOf socket

/-- The order of sockets, parted at one of them. -/
theorem split_all (socket : SocketName) : ∃ before after,
    all = before ++ socket :: after ∧ (∀ other ∈ before, other ≠ socket) ∧
      ∀ other ∈ after, socket.index ≤ other.index ∧ other ≠ socket := by
  cases socket with
  | object => exact ⟨[], _, rfl, by decide⟩
  | location => exact ⟨[.object], _, rfl, by decide⟩
  | action => exact ⟨[.object, .location], _, rfl, by decide⟩
  | when => exact ⟨[.object, .location, .action], _, rfl, by decide⟩
  | body => exact ⟨[.object, .location, .action, .when], _, rfl, by decide⟩
  | otherwise => exact ⟨[.object, .location, .action, .when, .body], _, rfl, by decide⟩
  | next => exact ⟨[.object, .location, .action, .when, .body, .otherwise], _, rfl, by decide⟩

end SocketName

namespace Sockets

variable {α : Type}

/-- A socket is found in the list when something is in it. -/
theorem find?_toList (s : Sockets α) (socket : SocketName) :
    s.toList.find? (·.1 == socket) = (s.get? socket).map (socket, ·) := by
  cases hfind : s.toList.find? (·.1 == socket) with
  | none =>
      cases hget : s.get? socket with
      | none => rfl
      | some content =>
          have := List.find?_eq_none.mp hfind _ (mem_toList.mpr hget)
          simp at this
  | some entry =>
      obtain ⟨found, content⟩ := entry
      have hfound : found = socket := by simpa using List.find?_some hfind
      subst hfound
      rw [mem_toList.mp (List.mem_of_find?_eq_some hfind)]
      rfl

/-- Sockets are listed in their order. -/
theorem toList_increasing (s : Sockets α) :
    s.toList.Pairwise fun a b => a.1.index < b.1.index := by
  have hall : SocketName.all.Pairwise fun a b => a.index < b.index := by decide
  refine hall.filterMap _ ?_
  rintro a b hlt ⟨socket, content⟩ ha ⟨socket', content'⟩ hb
  obtain ⟨_, -, heq⟩ := Option.map_eq_some_iff.mp ha
  obtain ⟨_, -, heq'⟩ := Option.map_eq_some_iff.mp hb
  cases heq
  cases heq'
  exact hlt

theorem toList_nodup (s : Sockets α) : s.toList.Nodup := by
  refine s.toList_increasing.imp fun {a b} hlt heq => ?_
  rw [heq] at hlt
  exact Nat.lt_irrefl _ hlt

/-- What is put into a socket behind all that are filled is listed last. -/
theorem toList_set (s : Sockets α) {socket : SocketName}
    (hfree : ∀ other, socket.index ≤ other.index → s.get? other = none) (content : Option α) :
    (s.set content socket).toList = s.toList ++ (content.map (socket, ·)).toList := by
  obtain ⟨before, after, hall, hbefore, hafter⟩ := socket.split_all
  have hleft : before.filterMap (fun other => ((s.set content socket).get? other).map (other, ·)) =
      before.filterMap fun other => (s.get? other).map (other, ·) := by
    apply List.filterMap_congr
    intro other hother
    rw [get?_set, if_neg (hbefore other hother)]
  have hright : ∀ t : Sockets α, (∀ other ∈ after, t.get? other = none) →
      after.filterMap (fun other => (t.get? other).map (other, ·)) = [] := by
    intro t ht
    apply List.filterMap_eq_nil_iff.mpr
    intro other hother
    rw [ht other hother, Option.map_none]
  unfold toList
  rw [hall, List.filterMap_append, List.filterMap_append, List.filterMap_cons, List.filterMap_cons,
    hleft, get?_set, if_pos rfl, hfree socket (Nat.le_refl _),
    hright s fun other hother => hfree other (hafter other hother).1,
    hright (s.set content socket) fun other hother => by
      rw [get?_set, if_neg (hafter other hother).2, hfree other (hafter other hother).1]]
  cases content <;> simp

end Sockets

namespace Tree

def kind : Tree → BlockKind
  | node kind _ _ => kind

def fields : Tree → FieldMap
  | node _ fields _ => fields

def inputs : Tree → List (SocketName × Tree)
  | node _ _ inputs => inputs

def child? (t : Tree) (socket : SocketName) : Option Tree :=
  (t.inputs.find? (·.1 == socket)).map (·.2)

/-- A tree without what is behind it in its chain. -/
def link (t : Tree) : Tree := node t.kind t.fields (t.inputs.filter (·.1 != .next))

/-- A link has lost the way on and nothing else. -/
theorem child?_link (t : Tree) (socket : SocketName) :
    t.link.child? socket = if socket = .next then none else t.child? socket := by
  obtain ⟨kind, fields, entries⟩ := t
  simp only [child?, link, inputs, List.find?_filter]
  by_cases h : socket = .next
  · simp [h]
  · rw [if_neg h]
    congr 2
    funext entry
    by_cases he : entry.1 = socket
    · simp [he, h]
    · simp [he]

mutual

/-- The links of a chain: its blocks with all that is plugged into them, the way on left out. -/
def chain : Tree → List Tree
  | node kind fields inputs => (node kind fields inputs).link :: chainBehind inputs

def chainBehind : List (SocketName × Tree) → List Tree
  | [] => []
  | (socket, tree) :: rest => if socket = .next then tree.chain else chainBehind rest

end

/-- The links of the chain in a socket. -/
def branch (t : Tree) (socket : SocketName) : List Tree :=
  match t.child? socket with
  | none => []
  | some head => head.chain

/-- A chain is its first link, followed by the chain behind. -/
theorem chain_eq (t : Tree) : t.chain = t.link :: t.branch .next := by
  obtain ⟨kind, fields, inputs⟩ := t
  have hbehind : ∀ entries : List (SocketName × Tree),
      chainBehind entries =
        match (entries.find? (·.1 == .next)).map (·.2) with
        | none => []
        | some head => head.chain := by
    intro entries
    induction entries with
    | nil => rfl
    | cons entry rest ih =>
        obtain ⟨socket, tree⟩ := entry
        by_cases h : socket = .next <;> simp [chainBehind, h, ih]
  rw [chain, hbehind inputs]
  rfl

/-! ### Putting trees together -/

/-- The entry of a socket, if there is something in it. -/
def inSocket (socket : SocketName) (t : Option Tree) : List (SocketName × Tree) :=
  (t.map (socket, ·)).toList

/-- A tree with something put into a socket of its top block. -/
def plug (t : Tree) (socket : SocketName) (content : Option Tree) : Tree :=
  node t.kind t.fields (t.inputs ++ inSocket socket content)

@[simp]
theorem kind_plug (t : Tree) (socket : SocketName) (content : Option Tree) :
    (t.plug socket content).kind = t.kind := rfl

@[simp]
theorem inputs_plug (t : Tree) (socket : SocketName) (content : Option Tree) :
    (t.plug socket content).inputs = t.inputs ++ inSocket socket content := rfl

@[simp]
theorem plug_none (t : Tree) (socket : SocketName) : t.plug socket none = t := by
  obtain ⟨kind, fields, inputs⟩ := t
  simp [plug, inSocket, Tree.kind, Tree.fields, Tree.inputs]

/-- Nothing is in a socket of the top block nor in one behind it. -/
def OpenAt (socket : SocketName) (t : Tree) : Prop :=
  ∀ entry ∈ t.inputs, entry.1.index < socket.index

/-- A socket stays open when one before it is filled. -/
theorem OpenAt.plug {t : Tree} {socket other : SocketName} (h : t.OpenAt other)
    (hlt : socket.index < other.index) (content : Option Tree) :
    (t.plug socket content).OpenAt other := by
  intro entry hentry
  rcases List.mem_append.mp hentry with hentry | hentry
  · exact h entry hentry
  · cases content with
    | none => cases hentry
    | some u =>
        obtain rfl := List.mem_singleton.mp hentry
        exact hlt

theorem openAt_nil (socket : SocketName) (kind : BlockKind) (fields : FieldMap) :
    (node kind fields []).OpenAt socket := nofun

/-- The chain of some links, with another chain behind it. -/
def nestOnto : List Tree → Option Tree → Option Tree
  | [], after => after
  | t :: rest, after => some (t.plug .next (nestOnto rest after))

/-- The chain of some links. -/
def nest (links : List Tree) : Option Tree := nestOnto links none

/-- A chain is its first link with the chain of the others behind it. -/
@[simp]
theorem nest_cons (t : Tree) (rest : List Tree) : nest (t :: rest) = some (t.plug .next (nest rest)) :=
  rfl

theorem nest_eq_none_iff {links : List Tree} : nest links = none ↔ links = [] := by
  cases links with
  | nil => exact iff_of_true rfl rfl
  | cons => exact iff_of_false nofun nofun

theorem nestOnto_append (first second : List Tree) (after : Option Tree) :
    nestOnto (first ++ second) after = nestOnto first (nestOnto second after) := by
  induction first with
  | nil => rfl
  | cons t rest ih => rw [List.cons_append, nestOnto, ih, nestOnto]

end Tree

namespace Graph

variable {g g' : Graph} {lo hi : Nat}

mutual

/-- The block `id` and what is below it look like a tree, and all their ids are in a range. -/
inductive Shows (g : Graph) (lo hi : Nat) : Tree → Nat → Prop
  | node {kind : BlockKind} {fields : FieldMap} {inputs : List (SocketName × Tree)} {id : Nat}
      {links : Sockets BlockId} (hlo : lo ≤ id) (hhi : id < hi)
      (hface : g.face? id = some ⟨kind, fields, links⟩)
      (hinputs : ShowsInputs g lo hi inputs links.toList) :
      Shows g lo hi (.node kind fields inputs) id

/-- What is plugged into sockets looks like trees. -/
inductive ShowsInputs (g : Graph) (lo hi : Nat) :
    List (SocketName × Tree) → List (SocketName × BlockId) → Prop
  | nil : ShowsInputs g lo hi [] []
  | cons {socket : SocketName} {tree : Tree} {child : BlockId}
      {inputs : List (SocketName × Tree)} {links : List (SocketName × BlockId)}
      (hchild : Shows g lo hi tree child) (hrest : ShowsInputs g lo hi inputs links) :
      ShowsInputs g lo hi ((socket, tree) :: inputs) ((socket, child) :: links)

end

/-- A pair of related optional values: both absent, or both present and related. -/
theorem rel_cases {α β : Type} {R : α → β → Prop} {a : Option α} {b : Option β}
    (h : Option.Rel R a b) : (a = none ∧ b = none) ∨ ∃ x y, a = some x ∧ b = some y ∧ R x y := by
  cases h with
  | none => exact .inl ⟨rfl, rfl⟩
  | some h => exact .inr ⟨_, _, rfl, rfl, h⟩

section Rel

variable {α β : Type} {R : α → β → Prop}

theorem rel_iff {a : Option α} {b : Option β} : Option.Rel R a b ↔
    a.isSome = b.isSome ∧ ∀ x y, a = some x → b = some y → R x y := by
  cases a <;> cases b <;> simp

theorem eq_none_of_rel_left {b : Option β} (h : Option.Rel R none b) : b = none := by
  cases h
  rfl

theorem exists_of_rel_left {x : α} {b : Option β} (h : Option.Rel R (some x) b) :
    ∃ y, b = some y ∧ R x y := by
  cases h with
  | some h => exact ⟨_, rfl, h⟩

theorem exists_of_rel_right {a : Option α} {y : β} (h : Option.Rel R a (some y)) :
    ∃ x, a = some x ∧ R x y := by
  cases h with
  | some h => exact ⟨_, rfl, h⟩

/-- What is in the one list has a partner in the other. -/
theorem exists_of_mem_left {as : List α} {bs : List β} {a : α} (h : List.Forall₂ R as bs)
    (ha : a ∈ as) : ∃ b ∈ bs, R a b := by
  induction h with
  | nil => cases ha
  | cons hfirst _ ih =>
      rcases List.mem_cons.mp ha with rfl | hrest
      · exact ⟨_, List.mem_cons_self, hfirst⟩
      · obtain ⟨b, hb, hab⟩ := ih hrest
        exact ⟨b, List.mem_cons_of_mem _ hb, hab⟩

theorem exists_of_mem_right {as : List α} {bs : List β} {b : β} (h : List.Forall₂ R as bs)
    (hb : b ∈ bs) : ∃ a ∈ as, R a b :=
  exists_of_mem_left h.flip hb

theorem rel_flip {a : Option α} {b : Option β} (h : Option.Rel R a b) : Option.Rel (flip R) b a := by
  cases h with
  | none => exact .none
  | some h => exact .some h

/-- Lists that match in turn match by way of the one between them. -/
theorem forall₂_comp {γ : Type} {S : β → γ → Prop} {as : List α} {bs : List β} {cs : List γ}
    (h : List.Forall₂ R as bs) (h' : List.Forall₂ S bs cs) :
    List.Forall₂ (Relation.Comp R S) as cs := by
  induction h generalizing cs with
  | nil =>
      cases h'
      exact .nil
  | cons hfirst _ ih =>
      cases h' with
      | cons hfirst' hrest => exact .cons ⟨_, hfirst, hfirst'⟩ (ih hrest)

theorem getElem?_of_forall₂ {as : List α} {bs : List β} (h : List.Forall₂ R as bs) {i : Nat}
    {b : β} (hb : bs[i]? = some b) : ∃ a, as[i]? = some a ∧ R a b := by
  induction h generalizing i with
  | nil => cases hb
  | cons hhead _ ih =>
      cases i with
      | zero =>
          obtain rfl := Option.some.inj hb
          exact ⟨_, rfl, hhead⟩
      | succ i => exact ih hb

/-- What is kept of a list matches what else is kept of it, member by member. -/
theorem forall₂_filterMap_of_rel {γ : Type} {f : γ → Option α} {f' : γ → Option β} {l : List γ}
    (h : ∀ c, Option.Rel R (f c) (f' c)) :
    List.Forall₂ R (l.filterMap f) (l.filterMap f') := by
  have hsame : (Relator.LiftFun Eq (Option.Rel R)) f f' := by
    rintro c _ rfl
    exact h c
  exact List.rel_filterMap hsame (List.forall₂_refl l)

end Rel

theorem Shows.lo_le {t : Tree} {id : Nat} (h : g.Shows lo hi t id) : lo ≤ id := by
  cases h with
  | node hlo => exact hlo

mutual

/-- Changes outside of the range of a tree do not matter, and the range may grow. -/
theorem Shows.frame {lo' hi' : Nat} (hlo : lo' ≤ lo) (hhi : hi ≤ hi')
    (hface : ∀ id : Nat, lo ≤ id → id < hi → g'.face? id = g.face? id) :
    ∀ {t : Tree} {id : Nat}, g.Shows lo hi t id → g'.Shows lo' hi' t id
  | _, _, .node h1 h2 h3 hinputs =>
      .node (Nat.le_trans hlo h1) (Nat.lt_of_lt_of_le h2 hhi) ((hface _ h1 h2).trans h3)
        (hinputs.frame hlo hhi hface)

theorem ShowsInputs.frame {lo' hi' : Nat} (hlo : lo' ≤ lo) (hhi : hi ≤ hi')
    (hface : ∀ id : Nat, lo ≤ id → id < hi → g'.face? id = g.face? id) :
    ∀ {inputs : List (SocketName × Tree)} {links : List (SocketName × BlockId)},
      g.ShowsInputs lo hi inputs links → g'.ShowsInputs lo' hi' inputs links
  | _, _, .nil => .nil
  | _, _, .cons hchild hrest => .cons (hchild.frame hlo hhi hface) (hrest.frame hlo hhi hface)

end

/-- The range of a tree may grow. -/
theorem Shows.widen {lo' hi' : Nat} {t : Tree} {id : Nat} (h : g.Shows lo hi t id) (hlo : lo' ≤ lo)
    (hhi : hi ≤ hi') : g.Shows lo' hi' t id :=
  h.frame hlo hhi fun _ _ _ => rfl

/-- What is in a socket of the blocks is shown in that socket of the trees. -/
theorem ShowsInputs.find? {inputs : List (SocketName × Tree)}
    {links : List (SocketName × BlockId)} (h : g.ShowsInputs lo hi inputs links)
    (socket : SocketName) :
    Option.Rel (g.Shows lo hi) ((inputs.find? (·.1 == socket)).map (·.2))
      ((links.find? (·.1 == socket)).map (·.2)) := by
  induction inputs generalizing links with
  | nil =>
      cases h
      exact .none
  | cons entry inputs ih =>
      cases h with
      | cons hchild hrest =>
          rename_i found _ _ _
          by_cases hs : found = socket
          · simpa [hs] using Option.Rel.some hchild
          · simpa [hs] using ih hrest

/-- A block that shows a tree has the kind of its top. -/
theorem Shows.kind {t : Tree} {id : Nat} (h : g.Shows lo hi t id) : g.kind? id = some t.kind := by
  cases h with
  | node _ _ hface => simp [kind?_eq_face?, hface, Tree.kind]

theorem Shows.live {t : Tree} {id : Nat} (h : g.Shows lo hi t id) : g.Live id :=
  live_of_kind? h.kind

/-- What is plugged into a block shows what is plugged into its tree. -/
theorem Shows.child? {t : Tree} {id : Nat} (h : g.Shows lo hi t id) (socket : SocketName) :
    Option.Rel (g.Shows lo hi) (t.child? socket) (g.child? id socket) := by
  cases h with
  | node _ _ hface hinputs =>
      have := hinputs.find? socket
      rw [Sockets.find?_toList] at this
      simpa [child?_eq_face?, hface, Tree.child?, Tree.inputs, Option.map_map] using this

theorem Shows.fields {t : Tree} {id : Nat} (h : g.Shows lo hi t id) :
    (g.block? id).map (·.fields) = some t.fields := by
  cases h with
  | node _ _ hface =>
      have := congrArg (Option.map Face.fields) hface
      simpa [face?, Option.map_map, Function.comp_def, Block.face, Tree.fields] using this

/-- A block that shows a tree has the kind and the fields of its top. -/
theorem Shows.block {t : Tree} {id : Nat} (h : g.Shows lo hi t id) :
    ∃ b, g.block? id = some b ∧ b.kind = t.kind ∧ b.fields = t.fields := by
  obtain ⟨b, hb, hfields⟩ := Option.map_eq_some_iff.mp h.fields
  have hkind := h.kind
  rw [kind?, hb] at hkind
  exact ⟨b, hb, Option.some.inj hkind, hfields⟩

/-- A block looks like a link of a chain, whatever is behind it. -/
structure ShowsLink (g : Graph) (lo hi : Nat) (t : Tree) (id : Nat) : Prop where
  kind : g.kind? id = some t.kind
  fields : (g.block? id).map (·.fields) = some t.fields
  child? : ∀ socket ≠ .next, Option.Rel (g.Shows lo hi) (t.child? socket) (g.child? id socket)

/-- A block that shows a tree shows its first link, whatever is behind it. -/
theorem Shows.link {t : Tree} {id : Nat} (h : g.Shows lo hi t id) : g.ShowsLink lo hi t.link id where
  kind := h.kind
  fields := h.fields
  child? socket hs := by
    rw [Tree.child?_link, if_neg hs]
    exact h.child? socket

/-- The blocks of a chain look, one by one, like the links of the chain of its tree. -/
theorem IsForest.forall₂_chain (hg : g.IsForest) {t : Tree} {id : Nat} (h : g.Shows lo hi t id) :
    List.Forall₂ (g.ShowsLink lo hi) t.chain (g.chain id) := by
  have hlive := h.live
  induction id, hlive using hg.below_induction generalizing t with
  | step id hlive ih =>
      rw [t.chain_eq, hg.chain_eq hlive]
      refine .cons h.link ?_
      unfold Tree.branch branch
      rcases rel_cases (h.child? .next) with ⟨ht, hc⟩ | ⟨head, next, ht, hc, hnext⟩
      · rw [ht, hc]
        exact .nil
      · rw [ht, hc]
        exact ih .next next hc hnext

/-- In a forest every block shows a tree. -/
theorem IsForest.exists_shows (hg : g.IsForest) {id : BlockId} (hid : g.Live id) :
    ∃ t, g.Shows 0 g.nextId t id := by
  induction id, hid using hg.below_induction with
  | step id hid ih =>
      obtain ⟨⟨kind, fields, links⟩, hface⟩ := live_iff_face?.mp hid
      have hinputs : ∀ entries : List (SocketName × BlockId),
          (∀ entry ∈ entries, g.child? id entry.1 = some entry.2) →
          ∃ inputs, g.ShowsInputs 0 g.nextId inputs entries := by
        intro entries
        induction entries with
        | nil => exact fun _ => ⟨[], .nil⟩
        | cons entry entries ihEntries =>
            intro hentries
            obtain ⟨socket, child⟩ := entry
            obtain ⟨tree, htree⟩ := ih socket child (hentries _ List.mem_cons_self)
            obtain ⟨inputs, hinputs⟩ :=
              ihEntries fun entry hentry => hentries entry (List.mem_cons_of_mem _ hentry)
            exact ⟨(socket, tree) :: inputs, .cons htree hinputs⟩
      obtain ⟨inputs, hinputs⟩ := hinputs links.toList fun entry hentry => by
        rw [child?_eq_face?, hface]
        exact Sockets.mem_toList.mp hentry
      exact ⟨_, .node (Nat.zero_le _) hid.lt_nextId hface hinputs⟩

/-- The bounded computation of a tree finds the tree that is shown. -/
theorem tree?_of_shallow {depth : Nat} {t : Tree} {id : Nat} (hshallow : g.Shallow depth id)
    (h : g.Shows lo hi t id) : g.tree? depth id = some t := by
  induction depth generalizing t id with
  | zero => exact hshallow.elim
  | succ depth ih =>
      cases h with
      | node _ _ hface hinputs =>
          rename_i kind fields inputs links _ _
          have hfilter : ∀ (inputs : List (SocketName × Tree)) (entries : List (SocketName × BlockId)),
              g.ShowsInputs lo hi inputs entries →
              (∀ entry ∈ entries, g.Shallow depth entry.2) →
              entries.filterMap (fun entry => (g.tree? depth entry.2).map (entry.1, ·)) = inputs := by
            intro inputs
            induction inputs with
            | nil =>
                intro entries hinputs _
                cases hinputs
                rfl
            | cons input inputs ihInputs =>
                intro entries hinputs hentries
                cases hinputs with
                | cons hchild hrest =>
                    rw [List.filterMap_cons, ih (hentries _ List.mem_cons_self) hchild]
                    exact congrArg _ (ihInputs _ hrest fun entry hentry =>
                      hentries entry (List.mem_cons_of_mem _ hentry))
          obtain ⟨b, hb, hshown⟩ := Option.map_eq_some_iff.mp hface
          obtain ⟨rfl, rfl, rfl⟩ := Face.mk.inj hshown
          rw [tree?, hb]
          refine congrArg some (congrArg (Tree.node b.kind b.fields) ?_)
          refine hfilter _ _ hinputs fun entry hentry => hshallow entry.1 entry.2 ?_
          simpa [Graph.child?, hb] using Sockets.mem_toList.mp hentry

/-- The tree under a block is the one it shows. -/
theorem IsForest.tree?_eq (hg : g.IsForest) {t : Tree} {id : Nat} (h : g.Shows lo hi t id) :
    g.tree? g.nextId id = some t :=
  tree?_of_shallow (hg.shallow h.live) h

/-- A larger bound finds no larger tree. -/
theorem IsForest.tree?_of_le (hg : g.IsForest) {id : BlockId} (hid : g.Live id) {depth : Nat}
    (hle : g.nextId ≤ depth) : g.tree? depth id = g.tree? g.nextId id := by
  obtain ⟨t, ht⟩ := hg.exists_shows hid
  rw [tree?_of_shallow ((hg.shallow hid).mono hle) ht, hg.tree?_eq ht]

/-- The trees under the roots, in their order. -/
theorem IsForest.forall₂_forest (hg : g.IsForest) :
    List.Forall₂ (g.Shows 0 g.nextId) g.forest g.roots := by
  have hroots : ∀ roots : List BlockId, (∀ root ∈ roots, g.Live root) →
      List.Forall₂ (g.Shows 0 g.nextId) (roots.filterMap (g.tree? g.nextId)) roots := by
    intro roots
    induction roots with
    | nil => exact fun _ => .nil
    | cons root roots ih =>
        intro hlive
        obtain ⟨t, ht⟩ := hg.exists_shows (hlive root List.mem_cons_self)
        rw [List.filterMap_cons, hg.tree?_eq ht]
        exact .cons ht (ih fun root hroot => hlive root (List.mem_cons_of_mem _ hroot))
  exact hroots g.roots fun root hroot => (hg.mem_roots.mp hroot).1

/-- Trees that the roots show are the trees of the diagram. -/
theorem IsForest.forest_eq (hg : g.IsForest) {ts : List Tree}
    (h : List.Forall₂ (g.Shows lo hi) ts g.roots) : g.forest = ts := by
  have hroots : ∀ (ts : List Tree) (roots : List BlockId), List.Forall₂ (g.Shows lo hi) ts roots →
      roots.filterMap (g.tree? g.nextId) = ts := by
    intro ts roots h
    induction h with
    | nil => rfl
    | cons hshows _ ih => rw [List.filterMap_cons, hg.tree?_eq hshows, ih]
  exact hroots ts g.roots h

end Graph

end TaskDiagram
