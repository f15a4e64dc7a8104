import TaskDiagram.Session.Bus

/-! # Followers that keep up

A follower that has had every event so far and asks again after each event misses none: it gets
that event and nothing else. It gets nothing as long as nothing is published.
-/

namespace TaskDiagram.Bus

variable {b : Bus} {receiver : Nat}

/-- The follower has had every event published so far. -/
structure UpToDate (b : Bus) (receiver : Nat) : Prop where
  cursor : b.cursors[receiver]? = some (some b.published)
  room : 0 < b.capacity
  kept_le : b.kept.length ≤ b.published

theorem le_powerFor (n fuel power : Nat) : power ≤ powerFor n fuel power := by
  induction fuel generalizing power with
  | zero => exact Nat.le_refl power
  | succ fuel ih =>
      rw [powerFor]
      split
      · exact Nat.le_refl power
      · exact Nat.le_trans (by omega) (ih (2 * power))

/-- The first follower of a new bus has missed nothing. -/
theorem upToDate_subscribe_new (capacity : Nat) : (new capacity).subscribe.UpToDate 0 where
  cursor := rfl
  room := le_powerFor _ _ 1
  kept_le := Nat.le_refl 0

namespace UpToDate

theorem subscribers_ne_zero (h : b.UpToDate receiver) : b.subscribers ≠ 0 := by
  have hmem : some b.published ∈ b.cursors.filter Option.isSome :=
    Array.mem_filter.mpr ⟨Array.mem_of_getElem? h.cursor, rfl⟩
  exact fun hzero => Array.ne_empty_of_mem hmem (Array.size_eq_zero_iff.mp hzero)

/-- There is nothing to get for one who has had everything. -/
theorem receive_eq (h : b.UpToDate receiver) :
    b.receive receiver = (if b.live then .empty else .closed, b) := by
  have hbehind : ¬ b.published < b.oldest := by
    rw [oldest]
    omega
  have hindex : b.published - b.oldest = b.kept.length := by
    have hle := h.kept_le
    rw [oldest]
    omega
  rw [receive, h.cursor]
  dsimp only [Option.join_some]
  rw [if_neg hbehind, hindex, List.getElem?_eq_none (Nat.le_refl _)]

theorem drainWith_eq (h : b.UpToDate receiver) (fuel : Nat) :
    drainWith receiver fuel b = ([], b) := by
  cases fuel with
  | zero => rfl
  | succ fuel =>
      rw [drainWith, h.receive_eq]
      cases b.live <;> rfl

/-- One who has had everything gets nothing, and the bus stays as it was. -/
theorem drain_eq (h : b.UpToDate receiver) : b.drain receiver = ([], b) := h.drainWith_eq _

/-- What is kept of the events when one more is published. -/
theorem publish_eq (h : b.UpToDate receiver) (e : GraphEvent) :
    ∃ older, older.length ≤ b.published ∧
      b.publish e = { b with published := b.published + 1, kept := older ++ [e] } := by
  have hroom := h.room
  have hle := h.kept_le
  -- At least the last event is kept, for there is room for one.
  refine ⟨b.kept.drop (b.kept.length + 1 - b.capacity), ?_, ?_⟩
  · rw [List.length_drop]
    omega
  · rw [publish, if_neg h.subscribers_ne_zero]
    dsimp only
    rw [List.length_append, List.length_singleton, List.drop_append_of_le_length (by omega)]

/-- One who has had everything gets the event that is published, and has had everything again. -/
theorem drain_publish (h : b.UpToDate receiver) (e : GraphEvent) :
    ∃ after, (b.publish e).drain receiver = ([.event e], after) ∧ after.UpToDate receiver := by
  obtain ⟨older, holder, heq⟩ := h.publish_eq e
  let after : Bus := { b with
    published := b.published + 1
    kept := older ++ [e]
    cursors := b.cursors.setIfInBounds receiver (some (b.published + 1)) }
  have hafter : after.UpToDate receiver := by
    refine ⟨?_, h.room, ?_⟩
    · obtain ⟨hlt, -⟩ := Array.getElem?_eq_some_iff.mp h.cursor
      exact Array.getElem?_setIfInBounds_self_of_lt hlt
    · simpa [after] using holder
  have hreceive : (b.publish e).receive receiver = (.event e, after) := by
    have holdest : (b.publish e).oldest = b.published - older.length := by
      rw [heq, oldest]
      simp
    -- Only the new event is behind the cursor.
    have hindex : b.published - (b.published - older.length) = older.length := by omega
    rw [receive, holdest, heq]
    dsimp only
    rw [h.cursor]
    dsimp only [Option.join_some]
    rw [if_neg (by omega), hindex, List.getElem?_concat_length]
  refine ⟨after, ?_, hafter⟩
  rw [drain, drainWith, hreceive]
  dsimp only
  rw [hafter.drainWith_eq]

end UpToDate

end TaskDiagram.Bus
