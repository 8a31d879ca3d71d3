import Mathlib.Tactic

/-!
# Segments of a ring of slots

A ring of `slots` cells is a memory indexed from zero together with index
arithmetic modulo `slots`.  The contents of a ring buffer are the cells of a
cyclic segment, read from its oldest cell.  This file proves how the segment
changes when its oldest cell is released and when a cell is written just
past its newest one, and it recovers the length of a segment from its two
end indices.
-/

namespace CyclicSegment

variable {α : Type*}

/-- The contents of `count` consecutive cells, starting at `start`. -/
def segment (slots : ℕ) (cells : ℕ → α) : ℕ → ℕ → List α
  | _, 0 => []
  | start, count + 1 =>
      cells start :: segment slots cells ((start + 1) % slots) count

@[simp] theorem segment_zero (slots : ℕ) (cells : ℕ → α) (start : ℕ) :
    segment slots cells start 0 = [] := rfl

theorem segment_succ (slots : ℕ) (cells : ℕ → α) (start count : ℕ) :
    segment slots cells start (count + 1) =
      cells start :: segment slots cells ((start + 1) % slots) count := rfl

@[simp] theorem length_segment
    (slots : ℕ) (cells : ℕ → α) (start count : ℕ) :
    (segment slots cells start count).length = count := by
  induction count generalizing start with
  | zero => rfl
  | succ count ih => simp [segment_succ, ih]

theorem segment_concat
    {slots start : ℕ} (hstart : start < slots) (cells : ℕ → α) (count : ℕ) :
    segment slots cells start (count + 1) =
      segment slots cells start count ++
        [cells ((start + count) % slots)] := by
  induction count generalizing start with
  | zero => simp [segment_succ, Nat.mod_eq_of_lt hstart]
  | succ count ih =>
      have hnext : (start + 1) % slots < slots :=
        Nat.mod_lt _ (by omega)
      have hindex : ((start + 1) % slots + count) % slots =
          (start + (count + 1)) % slots := by
        rw [Nat.mod_add_mod]
        congr 1
        omega
      rw [segment_succ, ih hnext, segment_succ, hindex]
      rfl

theorem segment_update
    (slots : ℕ) (cells : ℕ → α) (start count index : ℕ) (value : α)
    (houtside : ∀ k, k < count → (start + k) % slots ≠ index)
    (hstart : start < slots) :
    segment slots (Function.update cells index value) start count =
      segment slots cells start count := by
  induction count generalizing start with
  | zero => rfl
  | succ count ih =>
      have hhead : start ≠ index := by
        simpa [Nat.mod_eq_of_lt hstart] using houtside 0 (by omega)
      have htail : ∀ k, k < count →
          ((start + 1) % slots + k) % slots ≠ index := by
        intro k hk
        rw [Nat.mod_add_mod, show start + 1 + k = start + (k + 1) by omega]
        exact houtside (k + 1) (by omega)
      rw [segment_succ, segment_succ, Function.update_of_ne hhead,
        ih _ htail (Nat.mod_lt _ (by omega))]

theorem index_ne_of_lt {slots start i j : ℕ}
    (hij : i < j) (hj : j < slots) :
    (start + i) % slots ≠ (start + j) % slots := by
  intro hsame
  have hmod : i ≡ j [MOD slots] := Nat.ModEq.add_left_cancel' start hsame
  have heq : i = j := Nat.ModEq.eq_of_lt_of_lt hmod (by omega) hj
  omega

theorem segment_push
    {slots start count : ℕ} (hstart : start < slots) (hcount : count < slots)
    (cells : ℕ → α) (value : α) :
    segment slots
        (Function.update cells ((start + count) % slots) value)
        start (count + 1) =
      segment slots cells start count ++ [value] := by
  rw [segment_concat hstart, Function.update_self, segment_update]
  · intro k hk
    exact index_ne_of_lt hk hcount
  · exact hstart

/-! ## Lengths from end indices -/

/-- Number of steps from `start` to `stop` around the ring. -/
def gap (slots start stop : ℕ) : ℕ :=
  if start ≤ stop then stop - start else stop + slots - start

theorem next_eq {slots index : ℕ} (hindex : index < slots) :
    (index + 1) % slots = if index + 1 < slots then index + 1 else 0 := by
  split
  next hlt => exact Nat.mod_eq_of_lt hlt
  next hge =>
    have hwrap : index + 1 = slots := by omega
    rw [hwrap, Nat.mod_self]

theorem gap_lt {slots start stop : ℕ}
    (hstart : start < slots) (hstop : stop < slots) :
    gap slots start stop < slots := by
  unfold gap
  split <;> omega

theorem gap_eq_zero_iff {slots start stop : ℕ} (hstart : start < slots) :
    gap slots start stop = 0 ↔ start = stop := by
  unfold gap
  split <;> omega

theorem start_add_gap {slots start stop : ℕ}
    (hstart : start < slots) (hstop : stop < slots) :
    (start + gap slots start stop) % slots = stop := by
  unfold gap
  split
  next hle =>
    rw [Nat.add_sub_cancel' hle]
    exact Nat.mod_eq_of_lt hstop
  next hlt =>
    rw [show start + (stop + slots - start) = stop + slots by omega,
      Nat.add_mod_right]
    exact Nat.mod_eq_of_lt hstop

theorem gap_next_start {slots start stop : ℕ}
    (hstart : start < slots) (hstop : stop < slots) (hne : start ≠ stop) :
    gap slots ((start + 1) % slots) stop + 1 = gap slots start stop := by
  rw [next_eq hstart]
  unfold gap
  split_ifs <;> omega

theorem gap_next_start_self {slots index : ℕ}
    (hindex : index < slots) (hslots : 1 < slots) :
    gap slots ((index + 1) % slots) index + 1 = slots := by
  rw [next_eq hindex]
  unfold gap
  split_ifs <;> omega

/-- Advancing the end lengthens the segment by one cell, and closes the ring
when no free cell is left. -/
theorem gap_next_stop {slots start stop : ℕ}
    (hstart : start < slots) (hstop : stop < slots) :
    gap slots start ((stop + 1) % slots) =
      if gap slots start stop + 1 < slots
      then gap slots start stop + 1 else 0 := by
  rw [next_eq hstop]
  unfold gap
  split_ifs <;> omega

end CyclicSegment
