import Mathlib.Data.List.ReduceOption
import Mathlib.Tactic

/-!
# Runs of deterministic machines

A machine is a step function taking a state and an input to the next state
and an output.  This file defines the state and the outputs of a whole run
and proves the induction rules used for safety statements: an invariant may
speak about the inputs consumed so far, and it may rely on any hypothesis
about them that is inherited by shorter runs.

The last rule turns a property of every prefix of a run into a condition on
its single steps.  It is the form in which a missing guard is located: the
property survives a step exactly when the guard holds before it.

Loops with a run-time exit test are iterated with explicit fuel; a measure
that every iteration lowers shows that the fuel is never what ends them, and
an invariant under which the body goes on shows that they are never left.
-/

namespace RunHistory

section Runs

variable {σ ι ο : Type*} (step : σ → ι → σ × ο)

def exec : σ → List ι → σ
  | s, [] => s
  | s, i :: rest => exec (step s i).1 rest

def outputs : σ → List ι → List ο
  | _, [] => []
  | s, i :: rest => (step s i).2 :: outputs (step s i).1 rest

@[simp] theorem exec_nil (s : σ) : exec step s [] = s := rfl

@[simp] theorem exec_cons (s : σ) (i : ι) (rest : List ι) :
    exec step s (i :: rest) = exec step (step s i).1 rest := rfl

@[simp] theorem outputs_nil (s : σ) : outputs step s [] = [] := rfl

@[simp] theorem outputs_cons (s : σ) (i : ι) (rest : List ι) :
    outputs step s (i :: rest) =
      (step s i).2 :: outputs step (step s i).1 rest := rfl

@[simp] theorem exec_append (s : σ) (before after : List ι) :
    exec step s (before ++ after) =
      exec step (exec step s before) after := by
  induction before generalizing s with
  | nil => rfl
  | cons i rest ih => exact ih (step s i).1

@[simp] theorem outputs_append (s : σ) (before after : List ι) :
    outputs step s (before ++ after) =
      outputs step s before ++ outputs step (exec step s before) after := by
  induction before generalizing s with
  | nil => rfl
  | cons i rest ih =>
      simp only [List.cons_append, outputs_cons, exec_cons, ih]

@[simp] theorem length_outputs (s : σ) (inputs : List ι) :
    (outputs step s inputs).length = inputs.length := by
  induction inputs generalizing s with
  | nil => rfl
  | cons i rest ih => simp [ih]

theorem exec_invariant {motive : σ → Prop}
    (hstep : ∀ s i, motive s → motive (step s i).1)
    {s : σ} (hinit : motive s) (inputs : List ι) :
    motive (exec step s inputs) := by
  induction inputs generalizing s with
  | nil => exact hinit
  | cons i rest ih => exact ih (hstep s i hinit)

/-- The visible outputs of a machine that shows at most one per step. -/
theorem reduceOption_outputs_concat (machine : σ → ι → σ × Option ο) (s : σ)
    (inputs : List ι) (i : ι) :
    (outputs machine s (inputs ++ [i])).reduceOption =
      (outputs machine s inputs).reduceOption ++
        (machine (exec machine s inputs) i).2.toList := by
  rw [outputs_append, List.reduceOption_append, outputs_cons, outputs_nil]
  cases (machine (exec machine s inputs) i).2 <;> rfl

end Runs

section Refinement

variable {σ τ ι ο : Type*} {fine : σ → ι → σ × Option ο}
  {coarse : τ → ι → τ × Option ο}

/-- What becomes of a state at an input is nothing, with nothing shown, or
what the machine does. -/
def Follows (coarse : τ → ι → τ × Option ο) (i : ι) (before after : τ)
    (shown : Option ο) : Prop :=
  (after = before ∧ shown = none) ∨ coarse before i = (after, shown)

/-- Seen through `view`, a run of the fine machine is the run of the coarse
one over some of its inputs. -/
theorem exec_follows {Inv : σ → Prop} {view : σ → τ}
    (hpreserved : ∀ s i, Inv s → Inv (fine s i).1)
    (hfollows : ∀ s i, Inv s →
      Follows coarse i (view s) (view (fine s i).1) (fine s i).2)
    {s : σ} (hinit : Inv s) (inputs : List ι) :
    ∃ moves, moves.Sublist inputs ∧
      exec coarse (view s) moves = view (exec fine s inputs) ∧
      (outputs coarse (view s) moves).reduceOption =
        (outputs fine s inputs).reduceOption := by
  induction inputs using List.reverseRecOn with
  | nil => exact ⟨[], .slnil, rfl, rfl⟩
  | append_singleton earlier i ih =>
      rcases ih with ⟨moves, hsublist, hstate, hshown⟩
      have hinv := exec_invariant fine hpreserved hinit earlier
      rw [exec_append, reduceOption_outputs_concat]
      rcases hfollows _ i hinv with ⟨hsame, hquiet⟩ | hstep
      · refine ⟨moves, hsublist.trans (List.sublist_append_left _ _),
          hstate.trans hsame.symm, ?_⟩
        rw [hquiet, Option.toList_none, List.append_nil]
        exact hshown
      · refine ⟨moves ++ [i], hsublist.append (.refl _), ?_, ?_⟩
        · rw [exec_append, hstate, exec_cons, hstep]
          rfl
        · rw [reduceOption_outputs_concat, hstate, hstep, hshown]

end Refinement

section Prefixes

variable {ι : Type*}

/-- If a run property starts out true and each step preserves it exactly
when a guard holds before that step, then it holds at every prefix exactly
when the guard holds at every step. -/
theorem forall_prefix_iff_forall_step
    {inputs : List ι} {Good : List ι → Prop} {Guard : List ι → ι → Prop}
    (hnil : Good [])
    (hstep : ∀ before i, before ++ [i] <+: inputs → Good before →
      (Good (before ++ [i]) ↔ Guard before i)) :
    (∀ before, before <+: inputs → Good before) ↔
      ∀ before i, before ++ [i] <+: inputs → Guard before i := by
  constructor
  · intro hgood before i hpre
    have hbefore : before <+: inputs :=
      (List.prefix_append before [i]).trans hpre
    exact (hstep before i hpre (hgood before hbefore)).mp
      (hgood (before ++ [i]) hpre)
  · intro hguard before
    induction before using List.reverseRecOn with
    | nil => exact fun _ => hnil
    | append_singleton earlier i ih =>
        intro hpre
        have hearlier : earlier <+: inputs :=
          (List.prefix_append earlier [i]).trans hpre
        exact (hstep earlier i hpre (ih hearlier)).mpr
          (hguard earlier i hpre)

end Prefixes

section Commuting

variable {σ ι β : Type*} {step : σ → ι → σ × List β} {quiet : ι → Bool}
  {Inv : σ → Prop}

/-- Quiet inputs produce no output, and it makes no difference whether one
is taken before or after an input that is not quiet. -/
structure Commutes (step : σ → ι → σ × List β) (quiet : ι → Bool)
    (Inv : σ → Prop) : Prop where
  preserved : ∀ s i, Inv s → Inv (step s i).1
  silent : ∀ s q, Inv s → quiet q = true → (step s q).2 = []
  state : ∀ s q i, Inv s → quiet q = true → quiet i = false →
    (step (step s q).1 i).1 = (step (step s i).1 q).1
  output : ∀ s q i, Inv s → quiet q = true → quiet i = false →
    (step (step s q).1 i).2 = (step s i).2

namespace Commutes

theorem quiet_past (hcommutes : Commutes step quiet Inv) {s : σ}
    (hinv : Inv s) {q : ι} (hquiet : quiet q = true) {inputs : List ι}
    (hloud : ∀ i ∈ inputs, quiet i = false) :
    exec step (step s q).1 inputs = (step (exec step s inputs) q).1 ∧
      outputs step (step s q).1 inputs = outputs step s inputs := by
  induction inputs generalizing s with
  | nil => exact ⟨rfl, rfl⟩
  | cons i rest ih =>
      have hi := hloud i List.mem_cons_self
      have hrest := ih (hcommutes.preserved s i hinv)
        fun other hother => hloud other (List.mem_cons_of_mem i hother)
      rw [exec_cons, exec_cons, outputs_cons, outputs_cons,
        hcommutes.state s q i hinv hquiet hi,
        hcommutes.output s q i hinv hquiet hi]
      exact ⟨hrest.1, by rw [hrest.2]⟩

/-- A run may be reordered so that all quiet inputs come last. -/
theorem exec_quiet_last (hcommutes : Commutes step quiet Inv) {s : σ}
    (hinv : Inv s) (inputs : List ι) :
    exec step s inputs =
        exec step (exec step s (inputs.filter fun i => !quiet i))
          (inputs.filter quiet) ∧
      (outputs step s inputs).flatten =
        (outputs step s (inputs.filter fun i => !quiet i)).flatten := by
  induction inputs generalizing s with
  | nil => exact ⟨rfl, rfl⟩
  | cons i rest ih =>
      rcases ih (hcommutes.preserved s i hinv) with ⟨hstate, houtput⟩
      rw [exec_cons, outputs_cons, List.flatten_cons, hstate, houtput]
      cases hkind : quiet i with
      | false => simp [hkind]
      | true =>
          have hloud : ∀ other ∈ rest.filter fun i => !quiet i,
              quiet other = false := by
            simp
          rcases hcommutes.quiet_past hinv hkind hloud with ⟨hpast, hsame⟩
          rw [hpast, hsame, hcommutes.silent s i hinv hkind]
          simp [hkind]

end Commutes

end Commuting

end RunHistory

namespace BoundedLoop

section Loops

variable {σ : Type*} (body : σ → Option σ)

/-- Execute a loop body until it declines to continue, at most `fuel`
times. -/
def loop : ℕ → σ → σ
  | 0, s => s
  | fuel + 1, s =>
      match body s with
      | none => s
      | some next => loop fuel next

theorem loop_of_exit {s : σ} (hexit : body s = none) (fuel : ℕ) :
    loop body fuel s = s := by
  cases fuel with
  | zero => rfl
  | succ fuel => simp [loop, hexit]

theorem loop_succ_of_continue {s next : σ} (hbody : body s = some next)
    (fuel : ℕ) : loop body (fuel + 1) s = loop body fuel next := by
  simp [loop, hbody]

/-- The states from which an iteration of the loop was executed. -/
def trail : ℕ → σ → List σ
  | 0, _ => []
  | fuel + 1, s =>
      match body s with
      | none => []
      | some next => s :: trail fuel next

theorem trail_of_exit {s : σ} (hexit : body s = none) (fuel : ℕ) :
    trail body fuel s = [] := by
  cases fuel with
  | zero => rfl
  | succ fuel => simp [trail, hexit]

theorem trail_succ_of_continue {s next : σ} (hbody : body s = some next)
    (fuel : ℕ) :
    trail body (fuel + 1) s = s :: trail body fuel next := by
  simp [trail, hbody]

theorem length_trail_le (fuel : ℕ) (s : σ) :
    (trail body fuel s).length ≤ fuel := by
  induction fuel generalizing s with
  | zero => exact Nat.le_refl 0
  | succ fuel ih =>
      cases hbody : body s with
      | none => simp [trail_of_exit body hbody]
      | some next =>
          rw [trail_succ_of_continue body hbody, List.length_cons]
          exact Nat.succ_le_succ (ih next)

variable {body}

/-- Every iteration started from a state that satisfies the invariant and
from which the body went on. -/
theorem trail_induction {motive : σ → Prop}
    (hstep : ∀ s next, motive s → body s = some next → motive next)
    {s : σ} (hinit : motive s) (fuel : ℕ) :
    ∀ visited ∈ trail body fuel s,
      motive visited ∧ ∃ next, body visited = some next := by
  induction fuel generalizing s with
  | zero => simp [trail]
  | succ fuel ih =>
      cases hbody : body s with
      | none => simp [trail_of_exit body hbody]
      | some next =>
          rw [trail_succ_of_continue body hbody, List.forall_mem_cons]
          exact ⟨⟨hinit, next, hbody⟩, ih (hstep s next hinit hbody)⟩

theorem loop_induction {motive : σ → Prop}
    (hstep : ∀ s next, motive s → body s = some next → motive next)
    {s : σ} (hinit : motive s) (fuel : ℕ) :
    motive (loop body fuel s) := by
  induction fuel generalizing s with
  | zero => exact hinit
  | succ fuel ih =>
      cases hbody : body s with
      | none => rwa [loop_of_exit body hbody]
      | some next =>
          rw [loop_succ_of_continue body hbody]
          exact ih (hstep s next hinit hbody)

/-- Fuel that covers a decreasing measure is enough: the loop is left
because its body declined, not because the fuel ran out. -/
theorem loop_exits {Inv : σ → Prop} {measure : σ → ℕ}
    (hstep : ∀ s next, Inv s → body s = some next →
      Inv next ∧ measure next < measure s)
    {s : σ} (hinit : Inv s) {fuel : ℕ} (hfuel : measure s ≤ fuel) :
    body (loop body fuel s) = none := by
  induction fuel generalizing s with
  | zero =>
      cases hbody : body s with
      | none => simp [loop, hbody]
      | some next =>
          have hdecrease := (hstep s next hinit hbody).2
          omega
  | succ fuel ih =>
      cases hbody : body s with
      | none => rwa [loop_of_exit body hbody]
      | some next =>
          rcases hstep s next hinit hbody with ⟨hnext, hdecrease⟩
          rw [loop_succ_of_continue body hbody]
          exact ih hnext (by omega)

theorem loop_succ_of_exits {s : σ} {fuel : ℕ}
    (hexit : body (loop body fuel s) = none) :
    loop body (fuel + 1) s = loop body fuel s := by
  induction fuel generalizing s with
  | zero => exact loop_of_exit body hexit 1
  | succ fuel ih =>
      cases hbody : body s with
      | none => rw [loop_of_exit body hbody, loop_of_exit body hbody]
      | some next =>
          rw [loop_succ_of_continue body hbody] at hexit ⊢
          rw [loop_succ_of_continue body hbody]
          exact ih hexit

/-- A loop that would go the same way, and maybe further, makes up for one
that ran before it. -/
theorem loop_loop {first second : σ → Option σ} {Inv : σ → Prop}
    (hstep : ∀ s next, Inv s → first s = some next →
      Inv next ∧ second s = some next)
    {s : σ} (hinit : Inv s) (fuel : ℕ) {enough : ℕ}
    (hexit : second (loop second enough s) = none) :
    loop second enough (loop first fuel s) = loop second enough s := by
  induction fuel generalizing s enough with
  | zero => rfl
  | succ fuel ih =>
      cases hfirst : first s with
      | none => rw [loop_of_exit first hfirst]
      | some next =>
          rcases hstep s next hinit hfirst with ⟨hnext, hsecond⟩
          rw [loop_succ_of_continue first hfirst]
          cases enough with
          | zero => simp [loop, hsecond] at hexit
          | succ enough =>
              rw [loop_succ_of_continue second hsecond] at hexit ⊢
              have hsame := ih hnext hexit
              rw [← hsame] at hexit ⊢
              exact loop_succ_of_exits hexit

/-! ## Loops that are left -/

/-- With some amount of fuel the body declines in the end. -/
def Exits (body : σ → Option σ) (s : σ) : Prop :=
  ∃ fuel, body (loop body fuel s) = none

theorem exits_of_measure {Inv : σ → Prop} {measure : σ → ℕ}
    (hstep : ∀ s next, Inv s → body s = some next →
      Inv next ∧ measure next < measure s)
    {s : σ} (hinit : Inv s) : Exits body s :=
  ⟨measure s, loop_exits hstep hinit le_rfl⟩

/-- A loop whose body always goes on under an invariant that it keeps. -/
theorem not_exits_of_invariant {Inv : σ → Prop}
    (hstep : ∀ s, Inv s → ∃ next, body s = some next ∧ Inv next)
    {s : σ} (hinit : Inv s) : ¬ Exits body s := by
  rintro ⟨fuel, hexit⟩
  have hkept : ∀ current next, Inv current → body current = some next →
      Inv next := by
    intro current next hinv hbody
    obtain ⟨reached, hreached, hnext⟩ := hstep current hinv
    rw [Option.some.inj (hbody.symm.trans hreached)]
    exact hnext
  obtain ⟨next, hbody, -⟩ := hstep _ (loop_induction hkept hinit fuel)
  rw [hexit] at hbody
  contradiction

end Loops

end BoundedLoop
