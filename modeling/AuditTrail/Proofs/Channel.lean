import AuditTrail.Flow.Channel

/-!
# What goes through a channel

An item enters a channel only by a successful attempt, at the end, and leaves it only at the front. `Channel.entered` reads off
two states of a channel what has been put in between them.
-/

namespace AuditTrail

namespace Channel

variable {α : Type}

/-- The items put into a channel between two of its states, if at most one of putting in and taking out happened in between. -/
def entered (before after : Channel α) : List α := after.items.drop before.items.length

@[simp] theorem items_push (c : Channel α) (s : Sender) (a : α) : (c.push s a).items = c.items ++ [a] := rfl

@[simp] theorem items_join (c : Channel α) (s : Sender) : (c.join s).items = c.items := rfl

@[simp] theorem received_push (c : Channel α) (s : Sender) (a : α) : (c.push s a).received = c.received := rfl

@[simp] theorem received_join (c : Channel α) (s : Sender) : (c.join s).received = c.received := rfl

@[simp] theorem items_close (c : Channel α) : c.close.items = [] := rfl

@[simp] theorem items_ofCapacity (n : Nat) : (ofCapacity n : Channel α).items = [] := rfl

@[simp] theorem received_ofCapacity (n : Nat) : (ofCapacity n : Channel α).received = true := rfl

/-- What is taken out is the foremost item, and the rest stays. -/
theorem take?_eq_some {c c' : Channel α} {a : α} (h : c.take? = some (a, c')) :
    ∃ rest, c.items = a :: rest ∧ c' = { c with items := rest } := by
  unfold take? at h
  split at h
  · exact absurd h (by simp)
  · rename_i b rest hb
    simp only [Option.some.injEq, Prod.mk.injEq] at h
    obtain ⟨rfl, rfl⟩ := h
    exact ⟨rest, hb, rfl⟩

/-- Nothing can be taken out of an empty channel only. -/
theorem take?_eq_none {c : Channel α} (h : c.take? = none) : c.items = [] := by
  unfold take? at h
  split at h
  · assumption
  · exact absurd h (by simp)

/-- An attempt that sends puts the item in, and there is a receiver. -/
theorem attempt_sent {c c' : Channel α} {s : Sender} {a : α} (h : c.attempt s a = .sent c') :
    c.received = true ∧ c' = c.push s a := by
  unfold attempt at h
  split at h
  · exact absurd h (by simp)
  · rename_i hr
    split at h
    · exact absurd h (by simp)
    · split at h
      · simp only [Attempt.sent.injEq] at h
        exact ⟨by simpa using hr, h.symm⟩
      · exact absurd h (by simp)

/-- An attempt that joins only adds to those who wait. -/
theorem attempt_joined {c c' : Channel α} {s : Sender} {a : α} (h : c.attempt s a = .joined c') :
    c.received = true ∧ c' = c.join s := by
  unfold attempt at h
  split at h
  · exact absurd h (by simp)
  · rename_i hr
    split at h
    · simp only [Attempt.joined.injEq] at h
      exact ⟨by simpa using hr, h.symm⟩
    · split at h <;> exact absurd h (by simp)

/-- An attempt finds the channel closed only when there is no receiver. -/
theorem attempt_closed {c : Channel α} {s : Sender} {a : α} (h : c.attempt s a = .closed) : c.received = false := by
  unfold attempt at h
  split at h
  · rename_i hr
    simpa using hr
  · split at h
    · exact absurd h (by simp)
    · split at h <;> exact absurd h (by simp)

/-- A step that leaves the items as they are puts nothing in. -/
@[simp] theorem entered_of_items_eq {c c' : Channel α} (h : c'.items = c.items) : entered c c' = [] := by
  rw [entered, h, List.drop_length]

@[simp] theorem entered_self (c : Channel α) : entered c c = [] := entered_of_items_eq rfl

@[simp] theorem entered_push (c : Channel α) (s : Sender) (a : α) : entered c (c.push s a) = [a] := by
  rw [entered, items_push, List.drop_left]

@[simp] theorem entered_join (c : Channel α) (s : Sender) : entered c (c.join s) = [] := entered_of_items_eq rfl

/-- Taking out puts nothing in. -/
theorem entered_rest {c : Channel α} {a : α} {rest : List α} (h : c.items = a :: rest) :
    entered c { c with items := rest } = [] := by
  simp [entered, h]

/-- The channel with nothing in it and nobody but one sender at it. -/
def cleared (c : Channel α) (s : Sender) : Channel α := { c with items := [], waiting := [s] }

/-- With the channel to itself, a sender can send. -/
theorem attempt_cleared {c : Channel α} (hr : c.received = true) (hc : 0 < c.capacity) (s : Sender) (a : α) :
    (c.cleared s).attempt s a = .sent ((c.cleared s).push s a) := by
  obtain ⟨k, hk⟩ := Nat.exists_eq_succ_of_ne_zero (Nat.ne_of_gt hc)
  simp [cleared, attempt, admits, room, hr, hk]

@[simp] theorem entered_close (c : Channel α) : entered c c.close = [] := by simp [entered]

end Channel

end AuditTrail
