import Slipstream.RunHistory

/-!
# Progress under fair rounds

Threads take steps in an arbitrary order.  A thread may be blocked: its steps
then change nothing that matters to the others.  The steps of a thread that
is not blocked lower a rank, the work that is left.

If in every state that has not settled some thread is not blocked, then a
schedule that gives each thread a step in every round settles the machine
after more rounds than there was work.  Between the steps of a round the
other threads, and inputs that belong to no thread, may do what they like.

A machine that takes several steps where another one takes one makes progress
with it, if the steps in between get nearer to the one that counts.
-/

namespace FairRounds

variable {σ ι ο τ : Type*}

/-- Threads whose steps lower the work unless they are blocked. -/
structure Progress (step : σ → ι → σ × ο) (thread : ι → Option τ)
    (allowed : ι → Prop) (Inv Settled : σ → Prop) (Blocked : τ → σ → Prop)
    (work : σ → ℕ) : Prop where
  preserved : ∀ s i, Inv s → allowed i → Inv (step s i).1
  settled : ∀ s i, Inv s → allowed i → Settled s → Settled (step s i).1
  enabled : ∀ s, Inv s → ¬ Settled s → ∃ t, ¬ Blocked t s
  lowers : ∀ s i t, Inv s → allowed i → thread i = some t →
    ¬ Blocked t s → work (step s i).1 < work s
  waits : ∀ s i, Inv s → allowed i →
    work (step s i).1 < work s ∨
      (work (step s i).1 = work s ∧
        ∀ t, ¬ Blocked t s → ¬ Blocked t (step s i).1)

/-- Every thread has a step among the inputs. -/
def Round (thread : ι → Option τ) (inputs : List ι) : Prop :=
  ∀ t, ∃ i ∈ inputs, thread i = some t

/-- A step that leaves the work as it is and holds up no thread. -/
structure Keeps (Blocked : τ → σ → Prop) (work : σ → ℕ)
    (before after : σ) : Prop where
  same : work after = work before
  others : ∀ t, ¬ Blocked t before → ¬ Blocked t after

section Steps

variable {step : σ → ι → σ × ο} {thread : ι → Option τ}
  {allowed : ι → Prop} {Inv Settled : σ → Prop} {Blocked : τ → σ → Prop}
  {work : σ → ℕ}
  (hown : ∀ s i t, Inv s → allowed i → thread i = some t →
    (Blocked t s → Keeps Blocked work s (step s i).1) ∧
      (¬ Blocked t s → work (step s i).1 < work s))
  (hfree : ∀ s i, Inv s → allowed i → thread i = none →
    Keeps Blocked work s (step s i).1)
include hown hfree

theorem lowers_or_keeps (s : σ) (i : ι) (hinv : Inv s) (hi : allowed i) :
    work (step s i).1 < work s ∨ Keeps Blocked work s (step s i).1 := by
  cases hthread : thread i with
  | none => exact .inr (hfree s i hinv hi hthread)
  | some t =>
      obtain ⟨hkeeps, hlowers⟩ := hown s i t hinv hi hthread
      by_cases hblocked : Blocked t s
      · exact .inr (hkeeps hblocked)
      · exact .inl (hlowers hblocked)

/-- Threads make progress if each of their steps either keeps the work or
lowers it, as its thread is blocked or not. -/
theorem Progress.of_steps
    (hpreserved : ∀ s i, Inv s → allowed i → Inv (step s i).1)
    (hsettled : ∀ s i, Inv s → allowed i → Settled s →
      Settled (step s i).1)
    (henabled : ∀ s, Inv s → ¬ Settled s → ∃ t, ¬ Blocked t s) :
    Progress step thread allowed Inv Settled Blocked work where
  preserved := hpreserved
  settled := hsettled
  enabled := henabled
  lowers s i t hinv hi hthread := (hown s i t hinv hi hthread).2
  waits s i hinv hi := by
    rcases lowers_or_keeps hown hfree s i hinv hi with hlower | hkeeps
    · exact .inl hlower
    · exact .inr ⟨hkeeps.same, hkeeps.others⟩

end Steps

namespace Progress

variable {step : σ → ι → σ × ο} {thread : ι → Option τ}
  {allowed : ι → Prop} {Inv Settled : σ → Prop} {Blocked : τ → σ → Prop}
  {work : σ → ℕ}
  (hprogress : Progress step thread allowed Inv Settled Blocked work)
include hprogress

theorem work_step_le {s : σ} (hinv : Inv s) {i : ι} (hi : allowed i) :
    work (step s i).1 ≤ work s := by
  rcases hprogress.waits s i hinv hi with hlower | ⟨hsame, -⟩
  · exact hlower.le
  · exact hsame.le

section Inputs

variable {inputs : List ι} (hallowed : ∀ i ∈ inputs, allowed i)
include hallowed

theorem exec_inv {s : σ} (hinv : Inv s) :
    Inv (RunHistory.exec step s inputs) := by
  induction inputs generalizing s with
  | nil => exact hinv
  | cons i rest ih =>
      rw [List.forall_mem_cons] at hallowed
      exact ih hallowed.2 (hprogress.preserved s i hinv hallowed.1)

theorem exec_settled {s : σ} (hinv : Inv s) (hsettled : Settled s) :
    Settled (RunHistory.exec step s inputs) := by
  induction inputs generalizing s with
  | nil => exact hsettled
  | cons i rest ih =>
      rw [List.forall_mem_cons] at hallowed
      exact ih hallowed.2 (hprogress.preserved s i hinv hallowed.1)
        (hprogress.settled s i hinv hallowed.1 hsettled)

theorem work_exec_le {s : σ} (hinv : Inv s) :
    work (RunHistory.exec step s inputs) ≤ work s := by
  induction inputs generalizing s with
  | nil => exact le_rfl
  | cons i rest ih =>
      rw [List.forall_mem_cons] at hallowed
      exact (ih hallowed.2 (hprogress.preserved s i hinv hallowed.1)).trans
        (hprogress.work_step_le hinv hallowed.1)

/-- A thread that is not blocked stays so until the work is lowered, at the
latest by its own step. -/
theorem work_exec_lt_of_enabled {s : σ} (hinv : Inv s) {t : τ}
    (henabled : ¬ Blocked t s) (ht : ∃ i ∈ inputs, thread i = some t) :
    work (RunHistory.exec step s inputs) < work s := by
  induction inputs generalizing s with
  | nil => simp at ht
  | cons i rest ih =>
      rw [List.forall_mem_cons] at hallowed
      rcases hallowed with ⟨hi, hrest⟩
      have hnext := hprogress.preserved s i hinv hi
      have hlater := hprogress.work_exec_le hrest hnext
      rw [RunHistory.exec_cons]
      by_cases hown : thread i = some t
      · exact hlater.trans_lt
          (hprogress.lowers s i t hinv hi hown henabled)
      · rcases hprogress.waits s i hinv hi with hlower | ⟨hsame, hstays⟩
        · exact hlater.trans_lt hlower
        · have hremains : ∃ i ∈ rest, thread i = some t := by
            rcases ht with ⟨j, hj, hthread⟩
            rcases List.mem_cons.mp hj with rfl | hj
            · exact absurd hthread hown
            · exact ⟨j, hj, hthread⟩
          rw [← hsame]
          exact ih hrest hnext (hstays t henabled) hremains

theorem round {s : σ} (hinv : Inv s) (hround : Round thread inputs) :
    Settled (RunHistory.exec step s inputs) ∨
      work (RunHistory.exec step s inputs) < work s := by
  by_cases hsettled : Settled s
  · exact .inl (hprogress.exec_settled hallowed hinv hsettled)
  · obtain ⟨t, henabled⟩ := hprogress.enabled s hinv hsettled
    exact .inr
      (hprogress.work_exec_lt_of_enabled hallowed hinv henabled (hround t))

end Inputs

/-- More fair rounds than there is work settle the machine. -/
theorem rounds {s : σ} (hinv : Inv s) {rounds : List (List ι)}
    (hallowed : ∀ round ∈ rounds, ∀ i ∈ round, allowed i)
    (hrounds : ∀ round ∈ rounds, Round thread round)
    (hmany : work s < rounds.length) :
    Settled (RunHistory.exec step s rounds.flatten) := by
  induction rounds generalizing s with
  | nil => simp at hmany
  | cons first rest ih =>
      rw [List.forall_mem_cons] at hallowed hrounds
      rcases hallowed with ⟨hfirst, hrest⟩
      have hnext := hprogress.exec_inv hfirst hinv
      rw [List.flatten_cons, RunHistory.exec_append]
      rcases hprogress.round hfirst hinv hrounds.1 with hsettled | hlower
      · apply hprogress.exec_settled _ hnext hsettled
        intro i hi
        rcases List.mem_flatten.mp hi with ⟨round, hround, hmem⟩
        exact hrest round hround i hmem
      · apply ih hnext hrest hrounds.2
        rw [List.length_cons] at hmany
        omega

end Progress

/-! ## Refinement -/

/-- A delay stays as it is while its thread is blocked, and gets lower
otherwise. -/
structure Nears (blocked : Prop) (before after : ℕ) : Prop where
  stays : blocked → after = before
  nears : ¬ blocked → after < before

variable {ρ : Type*} {coarse : σ → ι → σ × ο} {fine : ρ → ι → ρ × ο}
  {thread : ι → Option τ} {allowed : ι → Prop} {Inv Settled : σ → Prop}
  {Blocked : τ → σ → Prop} {work : σ → ℕ} {view : ρ → σ}
  {Held : τ → ρ → Prop} {delay : ρ → ℕ}

/-- A step of a finer machine lowers the work seen through `view`, or it
lowers the delay of the steps that do.  Otherwise its thread is held up, and
no other thread is held up by it. -/
inductive Delays (work : σ → ℕ) (view : ρ → σ) (Held : τ → ρ → Prop)
    (delay : ρ → ℕ) (thread : Option τ) (before after : ρ) : Prop
  | works (hwork : work (view after) < work (view before))
  | nears (hwork : work (view after) = work (view before))
      (hdelay : delay after < delay before)
  | stays (hwork : work (view after) = work (view before))
      (hdelay : delay after = delay before)
      (hheld : ∀ t ∈ thread, Held t before)
      (hothers : ∀ t, ¬ Held t before → ¬ Held t after)

theorem Delays.of_nears {t : τ} {before after : ρ}
    (hwork : work (view after) = work (view before))
    (hnears : Nears (Held t before) (delay before) (delay after))
    (hothers : Held t before →
      ∀ other, ¬ Held other before → ¬ Held other after) :
    Delays work view Held delay (some t) before after := by
  by_cases hheld : Held t before
  · refine .stays hwork (hnears.stays hheld) ?_ (hothers hheld)
    intro other hother
    cases hother
    exact hheld
  · exact .nears hwork (hnears.nears hheld)

/-- A finer machine makes progress if the delays are bounded and a thread
that is not blocked in what is seen of the machine leaves one that is not
held up. -/
theorem Progress.refined {Fine : ρ → Prop} {bound : ℕ}
    (hprogress : Progress coarse thread allowed Inv Settled Blocked work)
    (hpreserved : ∀ s i, Fine s → allowed i → Fine (fine s i).1)
    (hinv : ∀ s, Fine s → Inv (view s))
    (hsettled : ∀ s i, Fine s → allowed i → Settled (view s) →
      Settled (view (fine s i).1))
    (hbound : ∀ s, delay s < bound)
    (hdelays : ∀ s i, Fine s → allowed i →
      Delays work view Held delay (thread i) s (fine s i).1)
    (hheld : ∀ s t, Fine s → ¬ Blocked t (view s) → ∃ t, ¬ Held t s) :
    Progress fine thread allowed Fine (fun s => Settled (view s)) Held
      fun s => bound * work (view s) + delay s := by
  have hlower : ∀ {before after : ρ},
      work (view after) < work (view before) →
        bound * work (view after) + delay after <
          bound * work (view before) + delay before := by
    intro before after hwork
    have hnext := hbound after
    have hscaled := Nat.mul_le_mul_left bound hwork
    rw [Nat.succ_eq_add_one, Nat.mul_add] at hscaled
    omega
  refine ⟨hpreserved, hsettled, ?_, ?_, ?_⟩
  · intro s hfine hunsettled
    obtain ⟨t, henabled⟩ := hprogress.enabled _ (hinv s hfine) hunsettled
    exact hheld s t hfine henabled
  · intro s i t hfine hi hthread hgoes
    cases hdelays s i hfine hi with
    | works hwork => exact hlower hwork
    | nears hwork hdelay =>
        rw [hwork]
        omega
    | stays hwork hdelay hstuck hothers =>
        exact absurd (hstuck t hthread) hgoes
  · intro s i hfine hi
    cases hdelays s i hfine hi with
    | works hwork => exact .inl (hlower hwork)
    | nears hwork hdelay =>
        left
        rw [hwork]
        omega
    | stays hwork hdelay hstuck hothers =>
        exact .inr ⟨by rw [hwork, hdelay], hothers⟩

/-! ## Calls -/

/-- A step of the own thread of a call ends the call or brings it nearer to
its end; the steps of the others leave it where it is. -/
structure Returns (step : σ → ι → σ × ο) (own : ι → Bool)
    (Calling : σ → Prop) (rank : σ → ℕ) (Ends : σ × ο → Prop) : Prop where
  alone : ∀ s i, Calling s → own i = false →
    Calling (step s i).1 ∧ rank (step s i).1 = rank s
  ends : ∀ s i, Calling s → own i = true →
    Ends (step s i) ∨ Calling (step s i).1 ∧ rank (step s i).1 < rank s
  positive : ∀ s, Calling s → 0 < rank s

/-- A call ends within as many steps of its own thread as its rank says, and
goes on until then. -/
theorem Returns.ends_within {step : σ → ι → σ × ο} {own : ι → Bool}
    {Calling : σ → Prop} {rank : σ → ℕ} {Ends : σ × ο → Prop}
    (hreturns : Returns step own Calling rank Ends) {s : σ}
    (hcalling : Calling s) {inputs : List ι}
    (hmany : rank s ≤ inputs.countP own) :
    ∃ before i later, inputs = before ++ i :: later ∧ own i = true ∧
      (∀ part, part <+: before → Calling (RunHistory.exec step s part)) ∧
      Ends (step (RunHistory.exec step s before) i) := by
  induction inputs generalizing s with
  | nil =>
      have hpositive := hreturns.positive s hcalling
      rw [List.countP_nil] at hmany
      omega
  | cons first rest ih =>
      have hlater : Calling (step s first).1 →
          rank (step s first).1 ≤ rest.countP own →
          ∃ before i later, first :: rest = before ++ i :: later ∧
            own i = true ∧
            (∀ part, part <+: before →
              Calling (RunHistory.exec step s part)) ∧
            Ends (step (RunHistory.exec step s before) i) := by
        intro hnext hrest
        obtain ⟨before, i, later, rfl, hi, hgoes, hends⟩ := ih hnext hrest
        refine ⟨first :: before, i, later, rfl, hi, ?_, hends⟩
        intro part hpart
        cases part with
        | nil => exact hcalling
        | cons head tail =>
            obtain ⟨rfl, htail⟩ := List.cons_prefix_cons.mp hpart
            exact hgoes tail htail
      cases hfirst : own first with
      | false =>
          obtain ⟨hnext, hsame⟩ := hreturns.alone s first hcalling hfirst
          rw [List.countP_cons_of_neg (by simp [hfirst]), ← hsame] at hmany
          exact hlater hnext hmany
      | true =>
          rw [List.countP_cons_of_pos hfirst] at hmany
          rcases hreturns.ends s first hcalling hfirst with
            hends | ⟨hnext, hless⟩
          · refine ⟨[], first, rest, rfl, hfirst, ?_, hends⟩
            intro part hpart
            rw [List.prefix_nil.mp hpart]
            exact hcalling
          · exact hlater hnext (by omega)

end FairRounds
