import Mathlib.Data.List.Basic

/-!
# Bounded channels

A FIFO queue of bounded capacity between its senders and one receiver.  A
sender waits while the queue is full; the receiver waits while it is empty and
some sender is left.
-/

namespace Foundation

universe u

/-- The values in the queue, oldest first, and the number of senders left. -/
structure Channel (capacity : ℕ) (α : Type u) where
  queue : List α
  senders : ℕ
  hcapacity : queue.length ≤ capacity

namespace Channel

variable {capacity : ℕ} {α : Type u}

/-- An empty channel with one sender. -/
def new : Channel capacity α := ⟨[], 1, Nat.zero_le _⟩

/-- Put a value into the queue; `none` while the sender has to wait. -/
def send (c : Channel capacity α) (a : α) : Option (Channel capacity α) :=
  if h : c.queue.length < capacity then
    some ⟨c.queue ++ [a], c.senders, by
      rw [List.length_append]
      exact h⟩
  else none

def dropSender (c : Channel capacity α) : Channel capacity α :=
  { c with senders := c.senders - 1 }

/-- Take a value from the queue, or learn that the channel is closed; `none`
while the receiver has to wait. -/
def recv (c : Channel capacity α) :
    Option (Option α × Channel capacity α) :=
  match c.queue.head? with
  | some a =>
      some (some a, ⟨c.queue.tail, c.senders, by
        have h := c.hcapacity
        rw [List.length_tail]
        omega⟩)
  | none => if c.senders = 0 then some (none, c) else none

/-- Send as many of the values as fit; what is left has to wait. -/
def sendAll (c : Channel capacity α) :
    List α → Channel capacity α × List α
  | [] => (c, [])
  | a :: rest =>
      match c.send a with
      | some c' => c'.sendAll rest
      | none => (c, a :: rest)

theorem send_eq_none_iff {c : Channel capacity α} {a : α} :
    c.send a = none ↔ capacity ≤ c.queue.length := by
  unfold send
  split
  next h => simp; omega
  next h => simp; omega

theorem send_eq_some {c c' : Channel capacity α} {a : α}
    (h : c.send a = some c') :
    c'.queue = c.queue ++ [a] ∧ c'.senders = c.senders := by
  unfold send at h
  split at h
  · cases h
    exact ⟨rfl, rfl⟩
  · cases h

/-- Values that fit are all sent, behind those already in the queue. -/
theorem sendAll_of_fits (c : Channel capacity α) (values : List α)
    (hfits : c.queue.length + values.length ≤ capacity) :
    (c.sendAll values).2 = [] ∧
      (c.sendAll values).1.queue = c.queue ++ values ∧
      (c.sendAll values).1.senders = c.senders := by
  induction values generalizing c with
  | nil => simp [sendAll]
  | cons a rest ih =>
      cases hsend : c.send a with
      | none =>
          rw [send_eq_none_iff] at hsend
          simp only [List.length_cons] at hfits
          omega
      | some c' =>
          obtain ⟨hqueue, hsenders⟩ := send_eq_some hsend
          have hrest := ih c' (by
            simp only [hqueue, List.length_append, List.length_cons,
              List.length_nil] at hfits ⊢
            omega)
          simp only [sendAll, hsend]
          rw [hqueue, hsenders] at hrest
          simpa using hrest

/-- Of values that do not all fit, one is left that has to wait. -/
theorem sendAll_of_overflow (c : Channel capacity α) (values : List α)
    (hoverflow : capacity < c.queue.length + values.length) :
    ∃ a rest, (c.sendAll values).2 = a :: rest ∧
      (c.sendAll values).1.send a = none := by
  induction values generalizing c with
  | nil =>
      have hcapacity := c.hcapacity
      simp only [List.length_nil] at hoverflow
      omega
  | cons a rest ih =>
      cases hsend : c.send a with
      | none => exact ⟨a, rest, by simp [sendAll, hsend], by simp [sendAll, hsend]⟩
      | some c' =>
          obtain ⟨hqueue, -⟩ := send_eq_some hsend
          simp only [sendAll, hsend]
          apply ih
          simp only [hqueue, List.length_append, List.length_cons,
            List.length_nil] at hoverflow ⊢
          omega

theorem recv_of_cons {c : Channel capacity α} {a : α} {rest : List α}
    (hqueue : c.queue = a :: rest) :
    ∃ c', c.recv = some (some a, c') ∧ c'.queue = rest ∧
      c'.senders = c.senders := by
  unfold recv
  split
  next b hhead =>
    rw [hqueue, List.head?_cons, Option.some_inj] at hhead
    subst hhead
    exact ⟨_, rfl, by simp [hqueue], rfl⟩
  next hhead => simp [hqueue] at hhead

theorem recv_of_closed {c : Channel capacity α} (hqueue : c.queue = [])
    (hsenders : c.senders = 0) : c.recv = some (none, c) := by
  simp [recv, hqueue, hsenders]

end Channel
end Foundation
