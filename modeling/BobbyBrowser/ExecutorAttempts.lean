/-
How often an execution has a worker run its command
(`crates/page-runtime/src/executor/execution.rs`, `transport.rs`, `revival.rs`).

After a lost connection the page is probed, the transport reattached or the browser
launched anew, and only a replayable command is run again, once. The evidence of a
completed command is that of the attempt that was made last.
-/
import BobbyBrowser.ExecutorRun

set_option autoImplicit false

namespace BobbyBrowser.PageRuntime

open Commands Calls List

/-- How often a worker was made to run a command. -/
def attempts (calls : List Answered) : ℕ := calls.countP fun answered => answered.1.runs

/-- How often an execution may run the command. -/
def attempts_allowed (command : RuntimeCommand) : ℕ := if command.class = .replayable then 2 else 1

/-- The evidence is that of the last attempt, with or without a note of the transport. -/
def FromLast (envelope : CommandEnvelope) (gate : SessionGate) (reported : List Evidence)
    (calls : List Answered) : Prop :=
  ∃ before worker page execution after,
    calls = before ++ ⟨.adaptive_execute worker envelope page gate, .ok execution⟩ :: after ∧
      attempts after = 0 ∧
      (reported = execution.evidence ∨ reported = execution.evidence ++ [reattach_evidence])

/-- The evidence is what the verification of the last attempt has left. -/
def Completes (envelope : CommandEnvelope) (gate : SessionGate) (evidence : List Evidence)
    (calls : List Answered) : Prop :=
  ∃ reported, FromLast envelope gate reported calls ∧
    match envelope.command with
    | .intent _ => evidence = reported
    | .primitive _ => ∃ worker typed_on,
      (⟨.verify worker envelope reported typed_on, .ok evidence⟩ : Answered) ∈ calls

/-- What the stage says of the calls of an execution. -/
def Tells (envelope : CommandEnvelope) (gate : SessionGate) (calls : List Answered) : Stage → Prop
  | .admitting _ => attempts calls = 0
  | .failed runs _ => attempts calls = runs
  | .ran _ evidence | .verifying evidence => FromLast envelope gate evidence calls
  | .verified evidence => Completes envelope gate evidence calls
  | .unverified _ => True
  | .ended outcome =>
    ∀ id evidence, outcome = .completed id evidence → Completes envelope gate evidence calls

/-- Since the calls of `base` there were no more attempts than are allowed, and the stage tells of
the last one. -/
def Tried (base : List Answered) (envelope : CommandEnvelope) (gate : SessionGate)
    (position : Position) (w : World) : Prop :=
  ∃ calls, w.calls = base ++ calls ∧ attempts calls ≤ attempts_allowed envelope.command ∧
    Tells envelope gate calls position.stage

variable {runtime : Runtime} {envelope : CommandEnvelope} {gate : SessionGate} {call : Call}
  {base calls : List Answered} {evidence : List Evidence} {answered : Answered} {stage : Stage}

theorem attempts_append (calls : List Answered) (answered : Answered) :
    attempts (calls ++ [answered]) = attempts calls + answered.1.runs.toNat := by
  rw [attempts, attempts, countP_append]
  cases h : answered.1.runs <;> simp [h]

/-! ## Calls that run nothing -/

section

variable (hidle : answered.1.runs = false)

include hidle

theorem attempts_idle : attempts (calls ++ [answered]) = attempts calls := by
  rw [attempts_append, hidle]
  rfl

theorem FromLast.append (h : FromLast envelope gate evidence calls) :
    FromLast envelope gate evidence (calls ++ [answered]) := by
  obtain ⟨before, worker, page, execution, after, rfl, hnone, hreported⟩ := h
  refine ⟨before, worker, page, execution, after ++ [answered], ?_, ?_, hreported⟩
  · rw [append_assoc, cons_append]
  · rw [attempts_idle hidle, hnone]

theorem Completes.append (h : Completes envelope gate evidence calls) :
    Completes envelope gate evidence (calls ++ [answered]) := by
  obtain ⟨reported, hlast, hverified⟩ := h
  refine ⟨reported, hlast.append hidle, ?_⟩
  split at hverified
  · exact hverified
  · obtain ⟨worker, typed_on, hmem⟩ := hverified
    exact ⟨worker, typed_on, mem_append_left _ hmem⟩

theorem Tells.append (h : Tells envelope gate calls stage) :
    Tells envelope gate (calls ++ [answered]) stage := by
  cases stage with
  | admitting | failed => exact (attempts_idle hidle).trans h
  | ran | verifying => exact FromLast.append hidle h
  | verified evidence => exact Completes.append hidle h
  | unverified error => exact trivial
  | ended outcome => exact fun id evidence hcompleted => (h id evidence hcompleted).append hidle

end

/-! ## The attempts -/

/-- **One more attempt** is among those that are allowed. -/
theorem Tells.run {runs : ℕ} {note : List Evidence} (h : Tells envelope gate calls stage)
    (hready : Ready envelope stage runs note) (worker : WorkerId) (page : Option PageState)
    (answer : Except AdaptiveFailure AdaptiveExecution) :
    attempts (calls ++ [⟨.adaptive_execute worker envelope page gate, answer⟩])
        ≤ attempts_allowed envelope.command ∧
      Tells envelope gate (calls ++ [⟨.adaptive_execute worker envelope page gate, answer⟩])
        (after_run runs note answer) := by
  have hruns : attempts calls = runs ∧ runs + 1 ≤ attempts_allowed envelope.command ∧
      (note = [] ∨ note = [reattach_evidence]) := by
    cases hready with
    | first =>
      refine ⟨h, ?_, .inl rfl⟩
      rw [attempts_allowed]
      split <;> omega
    | again failure note hclass hnote =>
      refine ⟨h, ?_, hnote⟩
      rw [attempts_allowed, if_pos hclass]
  obtain ⟨hsame, hallowed, hnote⟩ := hruns
  have hattempts : attempts (calls ++ [⟨.adaptive_execute worker envelope page gate, answer⟩])
      = runs + 1 := by
    rw [attempts_append, hsame]
    rfl
  refine ⟨hattempts.trans_le hallowed, ?_⟩
  cases answer with
  | error failure => exact hattempts
  | ok execution =>
    refine ⟨calls, worker, page, execution, [], rfl, rfl, ?_⟩
    rcases hnote with rfl | rfl
    · exact .inl (append_nil _)
    · exact .inr rfl

theorem Tells.uncompleted {outcome : Outcome} (h : Uncompleted outcome) :
    Tells envelope gate calls (.ended outcome) :=
  fun id evidence hcompleted => absurd hcompleted (h id evidence)

/-- The stage at the end of an execution says of its calls what the stage before it said. -/
theorem Tells.concludes {outcome : Outcome} (h : Tells envelope gate calls stage)
    (hconcludes : Concludes envelope stage outcome) :
    Tells envelope gate calls (.ended outcome) := by
  rcases hconcludes with ⟨hfails, -⟩ | ⟨evidence, hsucceeds, rfl⟩
  · exact Tells.uncompleted hfails.uncompleted
  rintro _ _ ⟨⟩
  cases stage with
  | verifying found =>
    obtain ⟨⟨intent, hintent⟩, -, rfl⟩ := hsucceeds
    refine ⟨evidence, h, ?_⟩
    rw [hintent]
  | verified found =>
    rw [show evidence = found from hsucceeds]
    exact h
  | _ => exact hsucceeds.elim

/-- **Every move keeps to the attempts that are allowed.** -/
theorem Tried.move : Moved handler (Moves envelope runtime gate) (Tried base envelope gate) := by
  rintro position call answer position' hmove choice w ⟨calls, hcalls, hallowed, htells⟩ hanswer
  have hnext := handle_calls w call choice
  rw [hanswer, hcalls, append_assoc] at hnext
  -- all calls but one run nothing
  have hidle (h : call.runs = false) :
      attempts (calls ++ [⟨call, answer⟩]) ≤ attempts_allowed envelope.command ∧
        Tells envelope gate (calls ++ [⟨call, answer⟩]) position.stage :=
    ⟨(attempts_idle h).trans_le hallowed, htells.append h⟩
  refine ⟨_, hnext, ?_⟩
  cases hmove with
  | rest stage answer hresting => exact hidle (idle_of_resting hresting)
  | record hand answer | mark hand answer =>
    cases answer with
    | ok u => exact hidle rfl
    | error e => exact ⟨(hidle rfl).1, Tells.uncompleted (uncompleted_journal_failure e _)⟩
  | fingerprint | humanize => exact hidle rfl
  | run page answer hready => exact htells.run hready _ page answer
  | prepare hand result answer =>
    cases answer with
    | ok u => exact hidle rfl
    | error e => exact ⟨(hidle rfl).1, Tells.uncompleted nofun⟩
  | verify typed_on answer hprimitive =>
    cases answer with
    | ok found =>
      refine ⟨(hidle rfl).1, _, (hidle rfl).2, ?_⟩
      rw [hprimitive]
      exact ⟨_, typed_on, mem_append_right _ mem_cons_self⟩
    | error e => exact ⟨(hidle rfl).1, trivial⟩
  | finish hand phase answer hconcludes =>
    cases answer with
    | ok u => exact ⟨(hidle rfl).1, (hidle rfl).2.concludes hconcludes⟩
    | error e => exact ⟨(hidle rfl).1, Tells.uncompleted (uncompleted_journal_failure e _)⟩

/-- **An execution runs its command at most once, and at most twice if it is replayable**, and what
it reports as completed is the evidence of the last run. -/
theorem attempts_of_execution (runtime : Runtime) (envelope : CommandEnvelope) (gate : SessionGate)
    (env : Env) (n : ℕ) (w : World) :
    ∃ calls,
      (run handler env n (execute_with_session_gate runtime envelope gate) w).2.calls
        = w.calls ++ calls ∧
      attempts calls ≤ (if envelope.command.class = .replayable then 2 else 1) ∧
      ∀ id evidence,
        (run handler env n (execute_with_session_gate runtime envelope gate) w).1
          = .completed id evidence → Completes envelope gate evidence calls := by
  have hstart : Tried w.calls envelope gate ⟨.admitting [], .empty⟩ w :=
    ⟨[], (append_nil _).symm, Nat.zero_le _, rfl⟩
  have hholds := (follows_execute runtime envelope gate).holds (I := fun _ => True)
    (fun _ _ _ => trivial) Tried.move hstart
  obtain ⟨position, hends, calls, hcalls, hallowed, htells⟩ := hholds.run env n
  refine ⟨calls, hcalls, hallowed, ?_⟩
  rcases hends with hended | hfails
  · rw [hended] at htells
    exact htells
  · exact fun id evidence hcompleted => absurd hcompleted (hfails.uncompleted id evidence)

end BobbyBrowser.PageRuntime
