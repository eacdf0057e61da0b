import Mathlib.Data.List.Basic
import Mathlib.Data.List.Forall2

/-!
# A broadcast channel, as one of its receivers has it

The channel keeps the last values sent and overwrites the others.  A receiver is told once how many
it will not get (`lagged`), and goes on with the oldest that is kept.

`Reads xs rs`: what was received, `rs`, accounts for the values `xs`, each of them received or counted.
`reads_tryRecv` is the rule: what a receive gives extends what was received before it.
-/

namespace WireTap

/-- The values sent, how many of them are overwritten, and the receiver's place. -/
structure Broadcast (α : Type) where
  sent : List α
  gone : Nat
  next : Nat
  closed : Bool
  gone_le : gone ≤ sent.length
  next_le : next ≤ sent.length
  deriving DecidableEq

/-- A channel nothing has been sent on, and its receiver. -/
def Broadcast.new {α : Type} : Broadcast α := ⟨[], 0, 0, false, Nat.zero_le _, Nat.zero_le _⟩

/-- What a receive gives. -/
inductive Received (α : Type) where
  | value (a : α)
  | lagged (n : Nat)
  | empty
  | closed
  deriving DecidableEq

/-- What was received accounts for these values. -/
inductive Reads {α : Type} : List α → List (Received α) → Prop where
  | nil : Reads [] []
  | value {xs rs} (a : α) : Reads xs rs → Reads (a :: xs) (.value a :: rs)
  | lagged {xs rs} (skipped : List α) : Reads xs rs →
      Reads (skipped ++ xs) (.lagged skipped.length :: rs)

namespace Received

variable {α : Type}

/-- The values among what was received. -/
def values : List (Received α) → List α
  | [] => []
  | .value a :: rs => a :: values rs
  | _ :: rs => values rs

/-- How many it says were missed. -/
def lag : List (Received α) → Nat
  | [] => 0
  | .lagged n :: rs => n + lag rs
  | _ :: rs => lag rs

theorem values_append (rs rs' : List (Received α)) : values (rs ++ rs') = values rs ++ values rs' := by
  induction rs with
  | nil => rfl
  | cons r rs ih => cases r <;> simp [values, ih]

theorem lag_append (rs rs' : List (Received α)) : lag (rs ++ rs') = lag rs + lag rs' := by
  induction rs with
  | nil => simp [lag]
  | cons r rs ih =>
    cases r with
    | lagged n =>
      simp only [List.cons_append, lag, ih]
      omega
    | _ => simpa only [List.cons_append, lag] using ih

end Received

namespace Reads

open Received

variable {α : Type} {xs ys : List α} {rs rs' : List (Received α)}

theorem append (h : Reads xs rs) (h' : Reads ys rs') : Reads (xs ++ ys) (rs ++ rs') := by
  induction h with
  | nil => exact h'
  | value a _ ih => exact value a ih
  | lagged skipped _ ih =>
    rw [List.append_assoc]
    exact lagged skipped ih

/-- In order, and none twice. -/
theorem values_sublist (h : Reads xs rs) : (values rs).Sublist xs := by
  induction h with
  | nil => exact List.Sublist.slnil
  | value a _ ih => exact ih.cons_cons a
  | lagged skipped _ ih => exact ih.trans (List.sublist_append_right _ _)

/-- What is missing is what was counted. -/
theorem length_eq (h : Reads xs rs) : xs.length = (values rs).length + lag rs := by
  induction h with
  | nil => rfl
  | value a _ ih =>
    simp only [values, lag, List.length_cons]
    omega
  | lagged skipped _ ih =>
    simp only [values, lag, List.length_append]
    omega

end Reads

namespace Broadcast

variable {α : Type}

/-- A value is sent. -/
def send (b : Broadcast α) (a : α) : Broadcast α :=
  { b with
    sent := b.sent ++ [a]
    gone_le := by
      have h := b.gone_le
      simp
      omega
    next_le := by
      have h := b.next_le
      simp
      omega }

/-- A receiver that starts now gets what is sent from now on. -/
def subscribe (b : Broadcast α) : Broadcast α :=
  { b with next := b.sent.length, next_le := Nat.le_refl _ }

/-- The oldest `n` that are kept are overwritten. -/
def overwrite (b : Broadcast α) (n : Nat) : Broadcast α :=
  { b with gone := min (b.gone + n) b.sent.length, gone_le := Nat.min_le_right _ _ }

/-- `try_recv`, and what `recv` gives once it is not `empty`. -/
def tryRecv (b : Broadcast α) : Received α × Broadcast α :=
  if b.next < b.gone then
    (.lagged (b.gone - b.next), { b with next := b.gone, next_le := b.gone_le })
  else if h : b.next < b.sent.length then
    (.value b.sent[b.next], { b with next := b.next + 1, next_le := h })
  else (if b.closed then .closed else .empty, b)

/-- The values between a place and the receiver's. -/
def since (b : Broadcast α) (place : Nat) : List α := (b.sent.take b.next).drop place

/-- The sender's part leaves what the receiver has gone past. -/
theorem since_send (b : Broadcast α) (a : α) (place : Nat) :
    (b.send a).since place = b.since place := by
  show ((b.sent ++ [a]).take b.next).drop place = (b.sent.take b.next).drop place
  rw [List.take_append_of_le_length b.next_le]

theorem since_self (b : Broadcast α) : b.since b.next = [] := by
  unfold since
  apply List.drop_eq_nil_of_le
  rw [List.length_take]
  omega

/-- A receiver that goes on passes the values up to its new place. -/
theorem since_append {b b' : Broadcast α} (hsent : b'.sent = b.sent) (hnext : b.next ≤ b'.next)
    {place : Nat} (hplace : place ≤ b.next) :
    b'.since place = b.since place ++ b'.since b.next := by
  unfold since
  have hlength : (b.sent.take b.next).length = b.next := by
    rw [List.length_take, Nat.min_eq_left b.next_le]
  have hsplit : b'.sent.take b'.next = b.sent.take b.next ++ (b'.sent.take b'.next).drop b.next := by
    conv_lhs => rw [← List.take_append_drop b.next (b'.sent.take b'.next)]
    rw [List.take_take, Nat.min_eq_left hnext, hsent]
  conv_lhs => rw [hsplit]
  exact List.drop_append_of_le_length (by omega)

/-- A receive that gives nothing leaves the receiver where it is; any other accounts for the values
it moved past. -/
theorem reads_tryRecv {b b' : Broadcast α} {r : Received α} (h : b.tryRecv = (r, b')) :
    (r = .empty ∨ r = .closed) ∧ b' = b ∨
      (r ≠ .empty ∧ r ≠ .closed) ∧ b.next ≤ b'.next ∧ b'.sent = b.sent ∧
        Reads (b'.since b.next) [r] := by
  unfold tryRecv at h
  split_ifs at h with hlag hmore hclosed
  · obtain ⟨rfl, rfl⟩ := Prod.mk.inj h
    refine .inr ⟨⟨nofun, nofun⟩, Nat.le_of_lt hlag, rfl, ?_⟩
    have hlength : ((b.sent.take b.gone).drop b.next).length = b.gone - b.next := by
      rw [List.length_drop, List.length_take, Nat.min_eq_left b.gone_le]
    have hreads := Reads.lagged ((b.sent.take b.gone).drop b.next) Reads.nil
    rw [List.append_nil, hlength] at hreads
    exact hreads
  · obtain ⟨rfl, rfl⟩ := Prod.mk.inj h
    refine .inr ⟨⟨nofun, nofun⟩, Nat.le_succ _, rfl, ?_⟩
    have hone : (b.sent.take (b.next + 1)).drop b.next = [b.sent[b.next]] := by
      have htaken : (b.sent.take b.next).length = b.next := by
        rw [List.length_take, Nat.min_eq_left (Nat.le_of_lt hmore)]
      rw [List.take_succ_eq_append_getElem hmore,
        List.drop_append_of_le_length (Nat.le_of_eq htaken.symm),
        List.drop_eq_nil_of_le (Nat.le_of_eq htaken), List.nil_append]
    show Reads ((b.sent.take (b.next + 1)).drop b.next) _
    rw [hone]
    exact Reads.value _ Reads.nil
  · obtain ⟨rfl, rfl⟩ := Prod.mk.inj h
    exact .inl ⟨.inr rfl, rfl⟩
  · obtain ⟨rfl, rfl⟩ := Prod.mk.inj h
    exact .inl ⟨.inl rfl, rfl⟩

end Broadcast

end WireTap
