import Mathlib.Data.List.Basic

/-!
# Buffered channels

A channel of capacity `n` holds at most `n` values in the order in which they were sent.
A send on a closed channel panics. A send on a full channel blocks; it is taken up again
in a later state, so it panics when the channel has been closed in the meantime.
-/

namespace Channel

variable {α : Type*} {capacity : ℕ}

/-- A channel with its buffered values, oldest first. -/
@[ext] structure Chan (α : Type*) (capacity : ℕ) where
  buf : List α
  closed : Bool
  bounded : buf.length ≤ capacity

/-- What a send finds. -/
inductive SendResult (α : Type*) (capacity : ℕ) where
  | sent (chan : Chan α capacity)
  | blocked
  | panics

namespace Chan

/-- A new channel is open and empty. -/
def make : Chan α capacity := ⟨[], false, Nat.zero_le _⟩

/-- Send a value. -/
def send (c : Chan α capacity) (v : α) : SendResult α capacity :=
  if c.closed then .panics
  else if h : c.buf.length < capacity then
    .sent ⟨c.buf ++ [v], c.closed, by rw [List.length_append, List.length_singleton]; exact h⟩
  else .blocked

/-- Take the oldest buffered value. -/
def receive (c : Chan α capacity) : Option (α × Chan α capacity) :=
  match c with
  | ⟨[], _, _⟩ => none
  | ⟨v :: rest, closed, h⟩ => some (v, ⟨rest, closed, Nat.le_trans (Nat.le_succ _) h⟩)

/-- Close the channel; buffered values stay. -/
def close (c : Chan α capacity) : Chan α capacity := { c with closed := true }

/-- A send panics exactly on a closed channel. -/
theorem send_eq_panics_iff (c : Chan α capacity) (v : α) : c.send v = .panics ↔ c.closed = true := by
  unfold send
  split
  · simp [*]
  · split <;> simp [*]

/-- A send goes through exactly on an open channel with room, and enqueues the value. -/
theorem send_eq_sent_iff (c c' : Chan α capacity) (v : α) :
    c.send v = .sent c' ↔
      c.closed = false ∧ c.buf.length < capacity ∧ c'.buf = c.buf ++ [v] ∧ c'.closed = false := by
  unfold send
  by_cases hclosed : c.closed = true
  · simp [hclosed]
  · by_cases hroom : c.buf.length < capacity
    · rw [if_neg hclosed, dif_pos hroom, SendResult.sent.injEq, Chan.ext_iff, eq_comm,
        @eq_comm _ c.closed c'.closed]
      simp [hclosed, hroom]
    · simp [hclosed, hroom]

/-- An open channel on which a send does not go through is full. -/
theorem length_of_ne_sent {c : Chan α capacity} {v : α} (hopen : c.closed = false)
    (h : ∀ c', c.send v ≠ .sent c') : c.buf.length = capacity := by
  by_contra hne
  have hroom : c.buf.length < capacity := Nat.lt_of_le_of_ne c.bounded hne
  refine h ⟨c.buf ++ [v], false, ?_⟩ ((send_eq_sent_iff _ _ _).mpr ⟨hopen, hroom, rfl, rfl⟩)
  rw [List.length_append, List.length_singleton]
  exact hroom

/-- A receive takes the head of the buffer. -/
theorem receive_eq_some_iff (c c' : Chan α capacity) (v : α) :
    c.receive = some (v, c') ↔ c.buf = v :: c'.buf ∧ c'.closed = c.closed := by
  obtain ⟨buf, closed, hbounded⟩ := c
  obtain ⟨buf', closed', hbounded'⟩ := c'
  cases buf with
  | nil => simp [receive]
  | cons w rest => simp [receive, eq_comm, and_assoc]

end Chan

end Channel
