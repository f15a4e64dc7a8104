import TaskDiagram.Proofs.Program.Merging
import TaskDiagram.Session.Conversation

/-! # Whole conversations

A conversation takes every turn up to the first one that is marked as finished and refuses all
that come behind it. What it holds at any time is a matter of the turns it took: their answers in
order, and at every leaf of the draft the last value that one of them set there.
-/

namespace TaskDiagram

/-- The turns up to and including the first one that is marked as finished. -/
def Turn.accepted : List Turn → List Turn
  | [] => []
  | turn :: rest => turn :: if turn.finished then [] else accepted rest

/-- One of the accepted turns is marked as finished if one of all turns is. -/
theorem Turn.any_finished_accepted (turns : List Turn) :
    (accepted turns).any (·.finished) = turns.any (·.finished) := by
  induction turns with
  | nil => rfl
  | cons turn rest ih =>
      rw [accepted, List.any_cons, List.any_cons]
      split
      next h => rw [h, Bool.true_or, Bool.true_or]
      next => rw [ih]

namespace Conversation

/-- The conversation after a turn; a turn that is refused leaves it as it was. -/
def next (c : Conversation) (turn : Turn) : Conversation :=
  match c.apply turn with
  | .ok (_, next) => next
  | .error _ => c

/-- The conversation after some turns. -/
def after (c : Conversation) (turns : List Turn) : Conversation := turns.foldl next c

theorem after_cons (c : Conversation) (turn : Turn) (rest : List Turn) :
    c.after (turn :: rest) = (c.next turn).after rest := rfl

theorem after_take_succ (c : Conversation) {turns : List Turn} {n : Nat} {turn : Turn}
    (hturn : turns[n]? = some turn) :
    c.after (turns.take (n + 1)) = (c.after (turns.take n)).next turn := by
  rw [after, List.take_add_one, hturn, List.foldl_append]
  rfl

section Step

variable {c : Conversation}

theorem apply_of_finished (h : c.finished = true) (turn : Turn) :
    c.apply turn = .error .finished := if_pos h

theorem next_of_finished (h : c.finished = true) (turn : Turn) : c.next turn = c := by
  rw [next, apply_of_finished h]

/-- An open conversation takes in the draft and the answer of a turn, and ends when the turn says
so. -/
theorem next_of_open (h : c.finished = false) (turn : Turn) :
    c.next turn =
      ⟨c.draft.merge turn.draft, c.transcript ++ [turn.answer], turn.finished⟩ := by
  rw [next, apply, if_neg (by rw [h]; decide)]

/-- An open conversation accepts every turn, and a turn that ends it yields the normal program of
the draft. -/
theorem apply_of_open (h : c.finished = false) (turn : Turn) :
    c.apply turn = .ok
      (if turn.finished then .finished (c.next turn).draft.normalize else .inProgress,
        c.next turn) := by
  rw [next_of_open h, apply, if_neg (by rw [h]; decide)]

end Step

/-! ## What a conversation holds -/

/-- The conversation holds what the given turns brought, and nothing else. -/
structure Holds (c : Conversation) (turns : List Turn) : Prop where
  draft : c.draft = (turns.map (·.draft)).foldl Program.merge .placeholder
  transcript : c.transcript = turns.map (·.answer)
  finished : c.finished = turns.any (·.finished)

theorem holds_new : new.Holds [] := ⟨rfl, rfl, rfl⟩

/-- An open conversation holds one more turn after it. -/
theorem Holds.next {c : Conversation} {turns : List Turn} (h : c.Holds turns)
    (hopen : c.finished = false) (turn : Turn) : (c.next turn).Holds (turns ++ [turn]) := by
  rw [next_of_open hopen]
  refine ⟨?_, ?_, ?_⟩
  · rw [List.map_append, List.foldl_append, ← h.draft]
    rfl
  · rw [List.map_append, ← h.transcript]
    rfl
  · rw [List.any_append, ← h.finished, hopen]
    simp

/-- Of further turns a conversation that is open takes those that are accepted. -/
theorem Holds.after {c : Conversation} {earlier : List Turn} (h : c.Holds earlier)
    (turns : List Turn) : (c.after turns).Holds
      (earlier ++ if c.finished then [] else Turn.accepted turns) := by
  induction turns generalizing c earlier with
  | nil => cases c.finished <;> simpa [Conversation.after, Turn.accepted] using h
  | cons turn rest ih =>
      rw [after_cons]
      cases hfinished : c.finished with
      | true =>
          -- A refused turn is none of those the conversation holds.
          rw [next_of_finished hfinished]
          simpa [hfinished] using ih h
      | false =>
          have hrest := ih (h.next hfinished turn)
          rw [next_of_open hfinished, List.append_assoc] at hrest
          rw [next_of_open hfinished]
          exact hrest

/-- A new conversation holds the accepted ones of the turns it is given. -/
theorem holds_after (turns : List Turn) : (new.after turns).Holds (Turn.accepted turns) :=
  holds_new.after turns

/-! ## Leaves of the draft -/

/-- A new draft sets no leaf. -/
theorem leaf?_placeholder (path : LeafPath) : Program.placeholder.leaf? path = none := by
  cases path with
  | step kind leaf => cases kind <;> cases leaf <;> rfl
  | control index leaf =>
      cases index with
      | succ index => rfl
      | zero =>
          cases leaf with
          | target leaf => cases leaf <;> rfl
          | step kind leaf => cases kind <;> cases leaf <;> rfl
          | otherwise kind leaf => cases kind <;> cases leaf <;> rfl
          | _ => rfl

/-- Where drafts are folded into a program, the last one that sets a leaf decides. -/
theorem leaf?_foldl_merge (p : Program) (turns : List Turn) (path : LeafPath) :
    ((turns.map (·.draft)).foldl Program.merge p).leaf? path =
      (turns.reverse.findSome? (·.draft.leaf? path)).or (p.leaf? path) := by
  induction turns generalizing p with
  | nil => rfl
  | cons turn rest ih =>
      rw [List.map_cons, List.foldl_cons, ih, Program.leaf?_merge, List.reverse_cons,
        List.findSome?_append, List.findSome?_singleton, Option.or_assoc]

/-- A leaf of the draft is that of the last turn that sets it. -/
theorem Holds.leaf? {c : Conversation} {turns : List Turn} (h : c.Holds turns) (path : LeafPath) :
    c.draft.leaf? path = turns.reverse.findSome? (·.draft.leaf? path) := by
  rw [h.draft, leaf?_foldl_merge, leaf?_placeholder, Option.or_none]

/-- A leaf that is set stays set. -/
theorem leaf?_next (c : Conversation) (turn : Turn) {path : LeafPath}
    (h : (c.draft.leaf? path).isSome) : ((c.next turn).draft.leaf? path).isSome := by
  cases hfinished : c.finished with
  | true => rwa [next_of_finished hfinished]
  | false =>
      rw [next_of_open hfinished, Program.leaf?_merge, Option.isSome_or, h, Bool.or_true]

/-- A leaf that is set stays set along a whole conversation. -/
theorem leaf?_after (c : Conversation) (turns : List Turn) {path : LeafPath}
    (h : (c.draft.leaf? path).isSome) : ((c.after turns).draft.leaf? path).isSome := by
  induction turns generalizing c with
  | nil => exact h
  | cons turn rest ih => exact ih (c.next turn) (c.leaf?_next turn h)

/-- A turn is accepted when none before it is marked as finished; if it is marked itself, it yields
the program the draft then stands for. Any other turn is refused and changes nothing. The transcript
has the answers of the turns accepted so far in order, every leaf of the draft is what the last of
them that set it set it to, and what is set stays set. -/
theorem turns_are_accepted_until_finished (turns : List Turn) (n : Nat) :
    let earlier := turns.take n
    let before := new.after earlier
    let behind := new.after (turns.take (n + 1))
    (∀ turn ∈ turns[n]?, if earlier.any (·.finished)
        then before.apply turn = .error .finished ∧ behind = before
        else before.apply turn =
          .ok (if turn.finished then .finished behind.draft.normalize else .inProgress, behind)) ∧
      before.finished = earlier.any (·.finished) ∧
      before.transcript = (Turn.accepted earlier).map (·.answer) ∧
      (∀ path, before.draft.leaf? path =
        (Turn.accepted earlier).reverse.findSome? (·.draft.leaf? path)) ∧
      ∀ path more, (before.draft.leaf? path).isSome →
        ((new.after (turns.take (n + more))).draft.leaf? path).isSome := by
  intro earlier before behind
  have hholds : before.Holds (Turn.accepted earlier) := holds_after earlier
  have hfinished : before.finished = earlier.any (·.finished) := by
    rw [hholds.finished, Turn.any_finished_accepted]
  refine ⟨fun turn hturn => ?_, hfinished, hholds.transcript, hholds.leaf?,
    fun path more hset => ?_⟩
  · have hbehind : behind = before.next turn := after_take_succ new hturn
    rw [← hfinished, hbehind]
    split
    next hover => exact ⟨apply_of_finished hover turn, next_of_finished hover turn⟩
    next hopen => exact apply_of_open (Bool.eq_false_iff.mpr hopen) turn
  · have hmore : new.after (turns.take (n + more)) = before.after ((turns.drop n).take more) := by
      rw [List.take_add, after, List.foldl_append]
      rfl
    rw [hmore]
    exact before.leaf?_after _ hset

end Conversation

end TaskDiagram
