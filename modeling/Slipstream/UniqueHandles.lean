import Mathlib.Data.Set.Insert
import Mathlib.Tactic

/-!
# Handles that have one holder

Handles are opened and closed again, and owners hold some of the open ones.
A table of handles carries the two facts that make closing safe: what is
held is open, and no handle is held twice.

An open handle that nobody holds is loose, since nobody will close it.  A
fresh handle is loose until an owner adopts it; passing a handle on and
closing it leave the loose handles as they are.
-/

structure HandleTable (Owner Handle : Type*) where
  opened : Set Handle
  held : Owner → Option Handle
  held_opened : ∀ {owner handle}, held owner = some handle → handle ∈ opened
  held_once : ∀ {first second handle}, held first = some handle →
    held second = some handle → first = second

namespace HandleTable

variable {Owner Handle : Type*}

def loose (table : HandleTable Owner Handle) : Set Handle :=
  {handle | handle ∈ table.opened ∧ ∀ owner, table.held owner ≠ some handle}

/-- Handles that were opened before there were owners. -/
def unowned (opened : Set Handle) : HandleTable Owner Handle where
  opened := opened
  held _ := none
  held_opened := by simp
  held_once := by simp

@[simp] theorem loose_unowned (opened : Set Handle) :
    (unowned opened : HandleTable Owner Handle).loose = opened := by
  simp [loose, unowned]

theorem mem_opened_iff {table : HandleTable Owner Handle} {handle : Handle} :
    handle ∈ table.opened ↔
      handle ∈ table.loose ∨ ∃ owner, table.held owner = some handle := by
  constructor
  · intro hopened
    by_cases hheld : ∃ owner, table.held owner = some handle
    · exact .inr hheld
    · exact .inl ⟨hopened, not_exists.mp hheld⟩
  · rintro (⟨hopened, -⟩ | ⟨owner, hheld⟩)
    · exact hopened
    · exact table.held_opened hheld

/-- A handle is opened, and nobody holds it yet. -/
def add (table : HandleTable Owner Handle) (handle : Handle) :
    HandleTable Owner Handle where
  opened := insert handle table.opened
  held := table.held
  held_opened hheld := .inr (table.held_opened hheld)
  held_once := table.held_once

theorem loose_add {table : HandleTable Owner Handle} {handle : Handle}
    (hfresh : handle ∉ table.opened) :
    (table.add handle).loose = insert handle table.loose := by
  ext other
  constructor
  · rintro ⟨rfl | hopened, hunheld⟩
    · exact .inl rfl
    · exact .inr ⟨hopened, hunheld⟩
  · rintro (rfl | ⟨hopened, hunheld⟩)
    · exact ⟨.inl rfl, fun _ hheld => hfresh (table.held_opened hheld)⟩
    · exact ⟨.inr hopened, hunheld⟩

section Owners

variable [DecidableEq Owner] (table : HandleTable Owner Handle)

/-- An owner adopts a handle that nobody holds. -/
def adopt (owner : Owner) (handle : Handle)
    (hloose : handle ∈ table.loose) : HandleTable Owner Handle where
  opened := table.opened
  held := Function.update table.held owner (some handle)
  held_opened {other found} hheld := by
    rw [Function.update_apply] at hheld
    split at hheld
    next =>
      cases hheld
      exact hloose.1
    next => exact table.held_opened hheld
  held_once {first second found} hfirst hsecond := by
    rw [Function.update_apply] at hfirst hsecond
    split_ifs at hfirst hsecond with hown hother hother
    · exact hown.trans hother.symm
    · cases hfirst
      exact absurd hsecond (hloose.2 second)
    · cases hsecond
      exact absurd hfirst (hloose.2 first)
    · exact table.held_once hfirst hsecond

/-- An owner closes the handle that it holds, if it holds one. -/
def close (owner : Owner) : HandleTable Owner Handle where
  opened := {handle | handle ∈ table.opened ∧ table.held owner ≠ some handle}
  held := Function.update table.held owner none
  held_opened {other found} hheld := by
    rw [Function.update_apply] at hheld
    split at hheld
    next => contradiction
    next hother =>
      exact ⟨table.held_opened hheld, fun hown =>
        hother (table.held_once hheld hown)⟩
  held_once {first second found} hfirst hsecond := by
    rw [Function.update_apply] at hfirst hsecond
    split_ifs at hfirst hsecond
    exact table.held_once hfirst hsecond

/-- Two owners exchange what they hold. -/
def exchange (first second : Owner) : HandleTable Owner Handle where
  opened := table.opened
  held owner := table.held (Equiv.swap first second owner)
  held_opened := table.held_opened
  held_once hone hother :=
    (Equiv.swap first second).injective (table.held_once hone hother)

variable {table}

theorem loose_adopt {owner : Owner} {handle : Handle}
    (hloose : handle ∈ table.loose) (hempty : table.held owner = none) :
    (table.adopt owner handle hloose).loose = table.loose \ {handle} := by
  ext other
  constructor
  · rintro ⟨hopened, hunheld⟩
    refine ⟨⟨hopened, fun holder hheld => hunheld holder ?_⟩, ?_⟩
    · have hne : holder ≠ owner := by
        rintro rfl
        rw [hempty] at hheld
        contradiction
      rw [← hheld]
      exact Function.update_of_ne hne _ _
    · rintro rfl
      exact hunheld owner (Function.update_self owner _ table.held)
  · rintro ⟨⟨hopened, hunheld⟩, hne⟩
    refine ⟨hopened, fun holder hheld => ?_⟩
    simp only [adopt, Function.update_apply] at hheld
    split at hheld
    next =>
      cases hheld
      exact hne rfl
    next => exact hunheld holder hheld

theorem loose_close (owner : Owner) :
    (table.close owner).loose = table.loose := by
  ext other
  constructor
  · rintro ⟨⟨hopened, hother⟩, hunheld⟩
    refine ⟨hopened, fun holder hheld => ?_⟩
    by_cases hsame : holder = owner
    · exact hother (hsame ▸ hheld)
    · apply hunheld holder
      rw [← hheld]
      exact Function.update_of_ne hsame _ _
  · rintro ⟨hopened, hunheld⟩
    refine ⟨⟨hopened, hunheld owner⟩, fun holder hheld => ?_⟩
    simp only [close, Function.update_apply] at hheld
    split at hheld
    next => contradiction
    next => exact hunheld holder hheld

theorem loose_exchange (first second : Owner) :
    (table.exchange first second).loose = table.loose := by
  ext handle
  apply and_congr_right
  intro _
  exact (Equiv.swap first second).forall_congr_right
    (q := fun owner => table.held owner ≠ some handle)

end Owners

end HandleTable
