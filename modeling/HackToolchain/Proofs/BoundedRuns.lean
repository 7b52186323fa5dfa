import HackToolchain.Proofs.Execution
import Mathlib
/-!
Runs with a limit. A run stops where the processor has halted, where the predicate holds, or where the
limit is reached, whichever comes first. Single steps say what that means: a run leaves the state after
as many steps as it counts, and it counts up to the first state at which it has to stop. A run can
therefore be cut anywhere, and going on from where its first part ended gives what one run would have
given.
-/

namespace HackToolchain.Cpu

/-! ## Steps one after another -/

/-- The state after `n` steps. A processor that halts before has none. -/
def after : Nat → Cpu → Except Failure Cpu
  | 0, cpu => .ok cpu
  | n + 1, cpu => cpu.step.bind (after n)

/-- Where a run has to stop: the processor has halted or the predicate holds. -/
def Stops (stop : Cpu → Bool) (cpu : Cpu) : Prop :=
  cpu.halted = true ∨ stop cpu = true

/-- After `n` steps there is a state, and a run has to stop at it. -/
def StopsAfter (stop : Cpu → Bool) (cpu : Cpu) (n : Nat) : Prop :=
  ∃ now, cpu.after n = .ok now ∧ now.Stops stop

variable {stop : Cpu → Bool} {cpu next : Cpu}

theorem after_succ (h : cpu.step = .ok next) (n : Nat) : cpu.after (n + 1) = next.after n := by
  rw [after, h]
  rfl

theorem stopsAfter_zero : cpu.StopsAfter stop 0 ↔ cpu.Stops stop := by
  constructor
  · intro h
    obtain ⟨now, hnow, hstops⟩ := h
    cases hnow
    exact hstops
  · intro h
    exact ⟨cpu, rfl, h⟩

theorem stopsAfter_succ (h : cpu.step = .ok next) (n : Nat) :
    cpu.StopsAfter stop (n + 1) ↔ next.StopsAfter stop n := by
  rw [StopsAfter, StopsAfter, after_succ h]

/-- A processor that need not stop takes a step. -/
theorem exists_step (h : ¬ cpu.Stops stop) : ∃ next, cpu.step = .ok next := by
  have hrunning : cpu.current? ≠ none := fun hnone => h (.inl ((current?_eq_none_iff cpu).1 hnone))
  obtain ⟨w, hw⟩ := Option.ne_none_iff_exists'.1 hrunning
  exact ⟨_, step_of_current? hw⟩

/-! ## What a run does first -/

/-- A run that has to stop does so without a step. -/
theorem runFrom_of_stops (h : cpu.Stops stop) (count fuel : Nat) : runFrom stop count fuel cpu = (count, cpu) := by
  cases fuel with
  | zero => rfl
  | succ fuel =>
    rw [runFrom]
    split
    · rfl
    next w hw =>
      have hstop : stop cpu = true := by
        refine h.resolve_left fun hhalted => ?_
        rw [(current?_eq_none_iff cpu).2 hhalted] at hw
        cases hw
      rw [if_pos hstop]

/-- Any other run takes a step and goes on from there. -/
theorem runFrom_of_step (h : ¬ cpu.Stops stop) (hstep : cpu.step = .ok next) (count fuel : Nat) :
    runFrom stop count (fuel + 1) cpu = runFrom stop (count + 1) fuel next := by
  rw [step] at hstep
  cases hw : cpu.current? with
  | none =>
    rw [hw] at hstep
    cases hstep
  | some w =>
    rw [hw] at hstep
    cases hstep
    rw [runFrom, hw]
    exact if_neg fun hstop => h (.inr hstop)

/-- Steps counted before add to those of a run. -/
theorem runFrom_count (stop : Cpu → Bool) (count fuel : Nat) (cpu : Cpu) :
    runFrom stop count fuel cpu = (count + (cpu.run stop fuel).1, (cpu.run stop fuel).2) := by
  rw [run]
  induction fuel generalizing count cpu with
  | zero => rfl
  | succ fuel ih =>
    by_cases hstops : cpu.Stops stop
    · rw [runFrom_of_stops hstops, runFrom_of_stops hstops, Nat.add_zero]
    · obtain ⟨next, hstep⟩ := exists_step hstops
      rw [runFrom_of_step hstops hstep, runFrom_of_step hstops hstep, ih (count + 1), ih (0 + 1), Nat.zero_add,
        Nat.add_assoc]

theorem run_of_stops (h : cpu.Stops stop) (cycles : Nat) : cpu.run stop cycles = (0, cpu) :=
  runFrom_of_stops h 0 cycles

theorem run_of_step (h : ¬ cpu.Stops stop) (hstep : cpu.step = .ok next) (cycles : Nat) :
    cpu.run stop (cycles + 1) = ((next.run stop cycles).1 + 1, (next.run stop cycles).2) := by
  rw [run, runFrom_of_step h hstep, runFrom_count, Nat.zero_add, Nat.add_comm 1]

/-! ## What a whole run does -/

/-- Runs with a limit, step by step: how many steps they take, and what state they leave. -/
inductive Runs (stop : Cpu → Bool) : Nat → Cpu → Nat → Cpu → Prop
  | limit {cpu : Cpu} : Runs stop 0 cpu 0 cpu
  | stopped {limit : Nat} {cpu : Cpu} : cpu.Stops stop → Runs stop limit cpu 0 cpu
  | step {limit count : Nat} {cpu next final : Cpu} : ¬ cpu.Stops stop → cpu.step = .ok next →
    Runs stop limit next count final → Runs stop (limit + 1) cpu (count + 1) final

theorem runs_run (stop : Cpu → Bool) (limit : Nat) (cpu : Cpu) :
    Runs stop limit cpu (cpu.run stop limit).1 (cpu.run stop limit).2 := by
  induction limit generalizing cpu with
  | zero => exact .limit
  | succ limit ih =>
    by_cases hstops : cpu.Stops stop
    · rw [run_of_stops hstops]
      exact .stopped hstops
    · obtain ⟨next, hstep⟩ := exists_step hstops
      rw [run_of_step hstops hstep]
      exact .step hstops hstep (ih next)

namespace Runs

variable {limit limit' count count' : Nat} {mid final : Cpu}

theorem run_eq (h : Runs stop limit cpu count final) : cpu.run stop limit = (count, final) := by
  induction h with
  | limit => rfl
  | stopped hstops => exact run_of_stops hstops _
  | step hstops hstep _ ih => rw [run_of_step hstops hstep, ih]

/-- A run and a further run are a run with both limits. -/
theorem trans (h : Runs stop limit cpu count mid) (h' : Runs stop limit' mid count' final) :
    Runs stop (limit + limit') cpu (count + count') final := by
  induction h with
  | limit => rwa [Nat.zero_add, Nat.zero_add]
  | stopped hstops =>
    -- The first run took no step, and the second has to stop where it starts.
    cases h' with
    | limit | stopped => exact .stopped hstops
    | step hrunning => exact absurd hstops hrunning
  | step hstops hstep _ ih =>
    rw [Nat.add_right_comm, Nat.add_right_comm _ 1]
    exact .step hstops hstep (ih h')

theorem le (h : Runs stop limit cpu count final) : count ≤ limit := by
  induction h with
  | limit => exact Nat.le_refl 0
  | stopped => exact Nat.zero_le _
  | step _ _ _ ih => exact Nat.succ_le_succ ih

/-- A run leaves the state after the steps it takes. -/
theorem after_eq (h : Runs stop limit cpu count final) : cpu.after count = .ok final := by
  induction h with
  | limit | stopped => rfl
  | step _ hstep _ ih => rw [after_succ hstep, ih]

/-- At no state that a run passes does it have to stop. -/
theorem not_stopsAfter (h : Runs stop limit cpu count final) {i : Nat} (hi : i < count) :
    ¬ cpu.StopsAfter stop i := by
  induction h generalizing i with
  | limit | stopped => exact absurd hi (Nat.not_lt_zero i)
  | step hstops hstep _ ih =>
    cases i with
    | zero => rwa [stopsAfter_zero]
    | succ i =>
      rw [stopsAfter_succ hstep]
      exact ih (Nat.lt_of_succ_lt_succ hi)

/-- A run that ends before its limit has to stop there. -/
theorem stopsAfter (h : Runs stop limit cpu count final) (hlt : count < limit) : cpu.StopsAfter stop count := by
  induction h with
  | limit => exact absurd hlt (Nat.lt_irrefl 0)
  | stopped hstops => exact stopsAfter_zero.2 hstops
  | step _ hstep _ ih =>
    rw [stopsAfter_succ hstep]
    exact ih (Nat.lt_of_succ_lt_succ hlt)

end Runs

/-- **Running in pieces is running at once.** Whatever the processor's program and state, and whatever
the predicate (one that never holds stands for none): a run and a further run leave the state that one
run with both limits leaves, and their counts add up to its count. A run counts the least number of
steps within its limit after which the processor has halted or the predicate holds, or its whole limit
if there is no such number, and leaves the state after that many steps. -/
theorem runs_compose (stop : Cpu → Bool) (cpu : Cpu) :
    (∀ m n, (cpu.run stop (m + n)).1 = (cpu.run stop m).1 + ((cpu.run stop m).2.run stop n).1 ∧
      (cpu.run stop (m + n)).2 = ((cpu.run stop m).2.run stop n).2) ∧
    ∀ k, cpu.after (cpu.run stop k).1 = .ok (cpu.run stop k).2 ∧
      (IsLeast {j | j ≤ k ∧ cpu.StopsAfter stop j} (cpu.run stop k).1 ∨
        (∀ j ≤ k, ¬ cpu.StopsAfter stop j) ∧ (cpu.run stop k).1 = k) := by
  refine ⟨fun m n => ?_, fun k => ?_⟩
  · have hpieces := (runs_run stop m cpu).trans (runs_run stop n _)
    rw [hpieces.run_eq]
    exact ⟨rfl, rfl⟩
  have hrun := runs_run stop k cpu
  refine ⟨hrun.after_eq, ?_⟩
  by_cases hstops : cpu.StopsAfter stop (cpu.run stop k).1
  · refine .inl ⟨⟨hrun.le, hstops⟩, fun j hj => ?_⟩
    exact Nat.le_of_not_lt fun hlt => hrun.not_stopsAfter hlt hj.2
  · -- The run did not have to stop, so it reached its limit, and it passed every state before.
    have hfull : (cpu.run stop k).1 = k := hrun.le.eq_of_not_lt fun hlt => hstops (hrun.stopsAfter hlt)
    refine .inr ⟨fun j hj => ?_, hfull⟩
    rcases hj.lt_or_eq with hlt | rfl
    · exact hrun.not_stopsAfter (hfull.symm ▸ hlt)
    · rwa [hfull] at hstops

end HackToolchain.Cpu
