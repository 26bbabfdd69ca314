/-
Whole runs of the ladder, and runs of a service.

The walk of `LadderWalk` leaves out the executions of the command. With what a
reading says of them, it becomes one of whole runs: everything that any number of
submitted commands, each of which may be cut short anywhere, store in the journal
and in the receipts is justified.
-/
import BobbyBrowser.CommandRecovery
import BobbyBrowser.LadderWalk
import BobbyBrowser.Submission

set_option autoImplicit false

namespace BobbyBrowser.Ladder

open Outcomes Commands Skills PageRuntime
open Calls

/-- The command as it was submitted, or with its target named the other way. -/
def Own (envelope e : CommandEnvelope) : Prop :=
  e = envelope ∨ alternate_interaction_envelope envelope = .ok e

theorem class_alternate_command (command : RuntimeCommand) :
    (alternate_command command).class = command.class := by
  cases command with
  | intent intent => rfl
  | primitive command => cases command <;> rfl

theorem Own.same {envelope e : CommandEnvelope} (h : Own envelope e) :
    e.command_id = envelope.command_id ∧ e.command.class = envelope.command.class := by
  rcases h with rfl | h
  · exact ⟨rfl, rfl⟩
  unfold alternate_interaction_envelope at h
  simp only at h
  split at h
  · cases h
    exact ⟨rfl, class_alternate_command _⟩
  · nomatch h

/-- What is said of a run between its executions: when the command may be executed, what an outcome
that is not completed leaves, and what a run ends with. -/
structure Course where
  Free : World → Prop
  Open : Outcome → World → Prop
  Ended : SkillRecoveryExecution → World → Prop

/-- A course is followed by a run that keeps a reading. -/
structure Fits (R : Reading) (C : Course) (c : Coordinator) (envelope : CommandEnvelope) : Prop where
  free_after : ∀ {w w'}, C.Free w → R.After w.calls w'.calls → C.Free w'
  open_after : ∀ {outcome w w'}, C.Open outcome w → R.After w.calls w'.calls → C.Open outcome w'
  may_run : ∀ {outcome w}, C.Open outcome w →
    failure_from_outcome outcome envelope.command.class ≠ .effect_uncertain → C.Free w
  late : ∀ {w}, R.Kept w → ∀ error, C.Open (total_deadline_outcome envelope error) w
  justified : ∀ {execution w},
    R.Own c envelope (verdict execution.command_outcome) w.calls →
    C.Ended execution w
  standing : ∀ {outcome execution w}, C.Open outcome w →
    verdict execution.command_outcome = verdict outcome → C.Ended execution w
  /-- An outcome that is not completed may be journaled as it is. -/
  unfinished : ∀ {outcome w}, C.Open outcome w → ∀ {reported}, verdict reported = verdict outcome →
    ∀ calls, R.Note envelope.command_id (terminal_record c.runtime (terminal_phase reported) reported)
      calls

/-- An execution of the command: a completed one is justified, and another leaves the command
open. -/
def Ran (R : Reading) (C : Course) (c : Coordinator) (envelope : CommandEnvelope)
    (outcome : Outcome) (w : World) : Prop :=
  (verdict outcome = .completed → R.Own c envelope .completed w.calls) ∧
  (verdict outcome ≠ .completed → C.Open outcome w)

/-- What a reading says of the executions of the command. -/
def Owned (R : Reading) (C : Course) (c : Coordinator) (envelope : CommandEnvelope) : Prop :=
  ∀ {e : CommandEnvelope} (gate : SessionGate), Own envelope e → ∀ {w}, R.Kept w → C.Free w →
    Holds handler R.Kept (execute_with_session_gate c.runtime e gate)
      (fun outcome w' => R.Kept w' ∧ Ran R C c envelope outcome w') w

/-- Nothing but the verdict is looked at. -/
def plain : Course where
  Free _ := True
  Open outcome _ := verdict outcome ≠ .completed
  Ended _ _ := True

/-- What a tactic may report. -/
def Progressing (R : Reading) (C : Course) (c : Coordinator) (envelope : CommandEnvelope)
    (outcome : Outcome) (w : World) : TacticProgress → Prop
  | .continued _ => C.Open outcome w
  | .outcome reported _ => C.Open reported w
  | progress => Reported R c envelope progress w.calls

variable {R : Reading} {C : Course} {c : Coordinator} {envelope : CommandEnvelope} {w : World}

theorem fits_plain
    (hunfinished : ∀ {outcome} (calls : List Answered), verdict outcome ≠ .completed →
      R.Note envelope.command_id (terminal_record c.runtime (terminal_phase outcome) outcome)
        calls) : Fits R plain c envelope where
  free_after h _ := h
  open_after h _ := h
  may_run _ _ := trivial
  late _ _ := by
    unfold total_deadline_outcome
    split <;> nofun
  justified _ := trivial
  standing _ _ := trivial
  unfinished h _ hverdict calls := hunfinished calls (hverdict ▸ h)

/-! ## Tasks that may execute the command -/

/-- From the world a task keeps everything justified, and what it returns is `Q`. -/
abbrev Ends {α : Type} (R : Reading) (w : World) (p : Climb α) (Q : α → World → Prop) : Prop :=
  Task.Keeps handler R.Kept p Q w

section

variable {α β : Type} {p : Climb α} {f : α → Climb β} {Q : α → World → Prop}
  {P : β → World → Prop} {S : α → List Answered → Prop}

theorem Keeps.ends (hp : Keeps R w.calls p S) (hw : R.Kept w)
    (h : ∀ a w', R.After w.calls w'.calls → S a w'.calls → Q a w') : Ends R w p Q := by
  refine fun skills => (hp w hw.stands skills).mono (fun _ h => h.1) ?_
  rintro out s w' ⟨hw', hq⟩
  exact ⟨hw'.1, fun a ha => h a w' hw'.2 (hq a ha)⟩

/-- What follows a task that does not execute the command. -/
theorem Keeps.then (hp : Keeps R w.calls p S) (hw : R.Kept w)
    (hf : ∀ a w', R.Kept w' → R.After w.calls w'.calls → S a w'.calls → Ends R w' (f a) P) :
    Ends R w (p >>= f) P :=
  (hp.ends (Q := fun a w' => R.After w.calls w'.calls ∧ S a w'.calls) hw
    fun _ _ hafter hs => ⟨hafter, hs⟩).bind fun a w' hw' h => hf a w' hw' h.1 h.2

end

/-! ## The climb -/

section

variable (hR : R.Steady) (hS : Sound R c envelope) (hC : Fits R C c envelope)
  (hO : Owned R C c envelope)

include hO

theorem ends_own {e : CommandEnvelope} (h : Own envelope e) (hw : R.Kept w) (hfree : C.Free w) :
    Ends R w (Task.lift (execute c.runtime e)) (Ran R C c envelope) :=
  Task.keeps_lift (hO {} h hw hfree)

include hC

/-- The tactic that tries another interaction runs the command again, which the course must leave
free. -/
theorem ends_change_interaction_method (hw : R.Kept w) (hfree : C.Free w) (outcome : Outcome) :
    Ends R w (change_interaction_method c envelope)
      fun progress w' => Progressing R C c envelope outcome w' progress := by
  refine Keeps.then keeps_of_except hw ?_
  intro alternate w₁ hw₁ hafter halternate
  refine (ends_own hO (.inr halternate) hw₁ (hC.free_after hfree hafter)).bind ?_
  intro reported w₂ hw₂ hran
  cases reported with
  | completed id evidence => exact Task.keeps_pure hw₂ (hran.1 rfl)
  | _ => exact Task.keeps_pure hw₂ (hran.2 nofun)

include hR hS

variable {page : PageState} {outcome : Outcome}

/-- **Every tactic** ends in progress of a kind that the course allows; by cases on the tactic. -/
theorem ends_tactic {decision : SkillDecision} (hw : R.Kept w) (hopen : C.Open outcome w)
    (hfree : decision.tactic = .change_interaction_method → C.Free w)
    (hpage : envelope.page_id = some page.id) :
    Ends R w (execute_tactic c envelope decision page)
      fun progress w' => Progressing R C c envelope outcome w' progress := by
  by_cases hchange : decision.tactic = .change_interaction_method
  · have hreconcile : decision.tactic ≠ .reconcile_checkpoint := by
      rw [hchange]
      nofun
    have howned : requires_checkpoint decision.tactic ≠ true := by
      rw [hchange]
      nofun
    refine (keeps_tactic_budget hR decision).then hw ?_
    intro budget w₁ hw₁ hafter _
    rw [if_neg hreconcile, if_neg howned]
    unfold execute_tactic_inner
    rw [hchange]
    refine ((ends_change_interaction_method hC hO hw₁ (hC.free_after (hfree hchange) hafter)
      outcome).within hw₁).bind ?_
    intro progress w₂ hw₂ hprogress
    cases progress with
    | none => exact Task.keeps_throw hw₂
    | some progress => exact Task.keeps_pure hw₂ (hprogress progress rfl)
  · refine (keeps_execute_tactic hR hS _ hchange hpage).ends hw ?_
    intro progress w' hafter hreported
    cases progress with
    | outcome reported effect => exact hreported.elim
    | continued effect => exact hC.open_after hopen hafter
    | _ => exact hreported

variable {next : Outcome → List SkillTacticEvidence → Climb SkillRecoveryExecution}

omit hO in
/-- What the ladder makes of a tactic's progress: it ends, or goes on with the next decision. -/
theorem ends_progressed (hnext : ∀ outcome tactics w, R.Kept w → C.Open outcome w →
      Ends R w (next outcome tactics) C.Ended) {progress : TacticProgress} (hw : R.Kept w)
    (hprogress : Progressing R C c envelope outcome w progress) (decision : SkillDecision)
    (tactics : List SkillTacticEvidence) :
    Ends R w (progressed c envelope next decision progress outcome tactics) C.Ended := by
  have hconclude {outcome : Outcome} {recorded skill_outcome : SkillOutcome}
      {tactics : List SkillTacticEvidence}
      (hfit : R.Own c envelope (verdict outcome) w.calls) :
      Ends R w (conclude_tactic c envelope decision recorded outcome skill_outcome tactics)
        C.Ended := by
    refine (keeps_conclude_tactic hR hS _ hfit).ends hw ?_
    intro execution w' hafter hverdict
    apply hC.justified
    rw [hverdict]
    exact hR.fit_extends hfit hafter
  have hrecord {outcome : Outcome} {tactics : List SkillTacticEvidence}
      (hopen : C.Open outcome w) :
      Ends R w (record_decision c decision (.adapted decision.tactic) >>= fun _ =>
        next outcome tactics) C.Ended := by
    refine (keeps_record_decision hR decision _).then hw ?_
    intro _ w' hw' hafter _
    exact hnext _ _ w' hw' (hC.open_after hopen hafter)
  cases progress with
  | completed observed effect =>
    have hfit : R.Own c envelope
        (verdict (.completed envelope.command_id observed)) w.calls := hprogress
    exact hconclude hfit
  | restarted restarted effect =>
    have hfit : R.Own c envelope (verdict restarted)
        w.calls := by
      have hverdict : verdict restarted = .restarted := hprogress
      rw [hverdict]
      exact hS.restarted w.calls
    exact hconclude hfit
  | effect_uncertain effect =>
    have hfit : R.Own c envelope
        (verdict (.needs_reconciliation envelope.command_id uncertain_error [])) w.calls :=
      hS.uncertain w.calls
    exact hconclude hfit
  | continued | outcome => exact hrecord hprogress

omit hR hS hC hO in
theorem trigger_failure {safe_text : String → Bool} {failure : SkillFailure} {text : String}
    {trigger : SkillTrigger} (h : SkillTrigger.new safe_text failure text = .ok trigger) :
    trigger.failure = failure := by
  unfold SkillTrigger.new at h
  split at h
  · rw [← Except.ok.inj h]
  · nomatch h

/-- **One turn of the loop.** -/
theorem ends_rung (hnext : ∀ outcome tactics w, R.Kept w → C.Open outcome w →
      Ends R w (next outcome tactics) C.Ended)
    (hw : R.Kept w) (hopen : C.Open outcome w) (hpage : envelope.page_id = some page.id)
    (tactics : List SkillTacticEvidence) :
    Ends R w (rung c envelope page next outcome tactics) C.Ended := by
  refine Keeps.then keeps_of_except hw ?_
  intro trigger w₁ hw₁ hafter₁ htrigger
  refine (keeps_issue_decision hR trigger).then hw₁ ?_
  intro issued w₂ hw₂ hafter₂ hissued
  have hopen₂ := hC.open_after hopen (hafter₁.trans hafter₂)
  cases issued with
  | error terminal =>
    -- the outcome stands
    refine Keeps.then (keeps_persist_recovery_outcome hR hS ?_) hw₂ ?_
    · exact fun calls _ => hC.unfinished hopen₂ (verdict_append_tactic_evidence _ _ _) calls
    · intro _ w₃ hw₃ hafter₃ _
      exact Task.keeps_pure hw₃ (hC.standing (hC.open_after hopen₂ hafter₃)
        (verdict_append_tactic_evidence _ _ _))
  | ok decision =>
    -- the command is run again only when its outcome does not ask for reconciliation
    have hfree : decision.tactic = .change_interaction_method → C.Free w₂ := by
      intro hchange
      apply hC.may_run hopen₂
      rw [← trigger_failure htrigger]
      intro huncertain
      have hreconcile := hissued decision rfl huncertain
      rw [hchange] at hreconcile
      nomatch hreconcile
    refine (ends_tactic hR hS hC hO hw₂ hopen₂ hfree hpage).attempt.bind ?_
    intro result w₃ hw₃ hresult
    cases result with
    | error error =>
      exact (keeps_failed_tactic hR hS decision error tactics).ends hw₃
        fun _ _ _ hfit => hC.justified hfit
    | ok progress =>
      exact ends_progressed hR hS hC hnext hw₃ (hresult progress rfl) decision tactics

/-- **The loop**, however many turns it takes. -/
theorem ends_climb (hpage : envelope.page_id = some page.id) (n : ℕ) :
    ∀ (outcome : Outcome) (tactics : List SkillTacticEvidence) (w : World), R.Kept w →
      C.Open outcome w → Ends R w (climb c envelope page n outcome tactics) C.Ended := by
  induction n with
  | zero =>
    intro outcome tactics w hw hopen
    exact ends_rung hR hS hC hO (fun _ _ _ hw _ => Task.keeps_throw hw) hw hopen hpage tactics
  | succ n ih =>
    intro outcome tactics w hw hopen
    exact ends_rung hR hS hC hO ih hw hopen hpage tactics

omit hS in
/-- The first execution. -/
theorem ends_first_attempt (hw : R.Kept w) (hfree : C.Free w) :
    Ends R w (first_attempt c envelope) (Ran R C c envelope) := by
  have hlate {w' : World} (hw' : R.Kept w') (error : CommandError) :
      Ran R C c envelope (total_deadline_outcome envelope error) w' := by
    refine ⟨?_, fun _ => hC.late hw' error⟩
    unfold total_deadline_outcome
    split <;> nofun
  refine Keeps.then (keeps_call hR fun _ _ => trivial) hw ?_
  intro now w₁ hw₁ hafter _
  cases remaining_duration envelope.deadline now with
  | error error => exact Task.keeps_pure hw₁ (hlate hw₁ error)
  | ok millis =>
    refine ((ends_own hO (.inl rfl) hw₁ (hC.free_after hfree hafter)).within hw₁).bind ?_
    intro reported w₂ hw₂ hran
    cases reported with
    | none => exact Task.keeps_pure hw₂ (hlate hw₂ _)
    | some outcome => exact Task.keeps_pure hw₂ (hran outcome rfl)

/-- **A run of the ladder** stores only what is justified, and ends as the course says. -/
theorem ends_execute_with_adaptation (page : PageState) (hw : R.Kept w) (hfree : C.Free w) :
    Ends R w (execute_with_adaptation c envelope page) C.Ended := by
  refine (keeps_replay_recovery_receipt hR hS).then hw ?_
  intro replayed w₁ hw₁ hafter₁ hreplayed
  cases replayed with
  | some execution => exact Task.keeps_pure hw₁ (hC.justified (hreplayed execution rfl))
  | none =>
    refine (keeps_reconcile_pending_decision hR hS).then hw₁ ?_
    intro reconciled w₂ hw₂ hafter₂ hreconciled
    cases reconciled with
    | some execution => exact Task.keeps_pure hw₂ (hC.justified (hreconciled execution rfl))
    | none =>
      refine (keeps_replay_recovery_receipt hR hS).then hw₂ ?_
      intro replayed w₃ hw₃ hafter₃ hreplayed
      cases replayed with
      | some execution => exact Task.keeps_pure hw₃ (hC.justified (hreplayed execution rfl))
      | none =>
        refine (keeps_validate_context hR page).then hw₃ ?_
        intro _ w₄ hw₄ hafter₄ hpage
        have hafter := hafter₁.trans (hafter₂.trans (hafter₃.trans hafter₄))
        refine (ends_first_attempt hR hC hO hw₄ (hC.free_after hfree hafter)).bind ?_
        intro outcome w₅ hw₅ hran
        cases outcome with
        | completed id evidence => exact Task.keeps_pure hw₅ (hC.justified (hran.1 rfl))
        | _ => exact ends_climb hR hS hC hO hpage _ _ _ w₅ hw₅ (hran.2 nofun)

end

end BobbyBrowser.Ladder

namespace BobbyBrowser.Submission

open Outcomes Commands PageRuntime List
open Calls Ladder Transition
open PageRuntime (World Env handler)

/-! ## Runs of a service -/

/-- The durable state of a service with all calls that were made, and the commands that were
submitted. -/
structure State where
  world : World := {}
  submitted : List CommandEnvelope := []

inductive Action
  /-- A command is submitted, to a process that stops after `fuel` calls if it needs more. -/
  | submit (session : Option Session) (envelope : CommandEnvelope)
      (vision_capability_ok one_shot_session_ok : Bool) (env : Env) (fuel : ℕ)
  | recover (id : CommandId) (env : Env)
  /-- A client stores a checkpoint, with whatever receipts it has put into it. -/
  | checkpoint (checkpoint : WorkflowCheckpoint)
  /-- The end of the journal's file is damaged. -/
  | tear

section

variable (service : Service)

/-- The world after a process has run a submitted command, or has stopped in it. -/
def submitted_world (session : Option Session) (envelope : CommandEnvelope)
    (vision_capability_ok one_shot_session_ok : Bool) (env : Env) (fuel : ℕ) (w : World) : World :=
  (stop handler env fuel 0
    (submit service session envelope vision_capability_ok one_shot_session_ok) w).2

/-- One step of a run. -/
def step (s : State) : Action → Option State
  | .submit session envelope vision_capability_ok one_shot_session_ok env fuel =>
    some { world := submitted_world service session envelope vision_capability_ok
             one_shot_session_ok env fuel s.world
           submitted := s.submitted ++ [envelope] }
  | .recover id env =>
    some { s with world := (run handler env 0 (recover_command service.pages id) s.world).2 }
  | .checkpoint checkpoint => some { s with world := s.world.put_checkpoint checkpoint }
  | .tear => some { s with world := { s.world with log := { s.world.log with torn := true } } }

/-- Receipts are the ladder's own: those of a client would be replayed as if it had written them. -/
def Action.unreceipted : Action → Prop
  | .checkpoint taken => taken.recovery_receipts = []
  | _ => True

/-- States reached from an empty journal, with no receipts from clients. -/
def Reached : State → Prop := Reachable (· = {}) (step service) fun _ action => action.unreceipted

end

variable {R : Reading} {service : Service} {envelope : CommandEnvelope} {w : World}

/-- A recovery of the executor keeps what a steady reading keeps. -/
theorem kept_recover (hR : R.Steady) (hw : R.Kept w) (id : CommandId) (env : Env) :
    R.Kept (run handler env 0 (recover_command service.pages id) w).2 := by
  have hholds : Holds handler R.Kept (recover_command service.pages id) (fun _ => R.Kept) w := by
    refine (only_recover_command service.pages id).holds ?_ hw
    intro call hcall choice w' hw'
    refine hw'.call hR call ?_ choice
    cases call with
    | history | finalize_prepared_download | finalize_prepared_artifact
    | cleanup_prepared_download =>
      exact trivial
    | _ => exact hcall.elim
  exact hholds.run env 0

theorem kept_checkpoint {checkpoint : WorkflowCheckpoint}
    (hextra : R.Extra (w.put_checkpoint checkpoint)) (hw : R.Kept w)
    (hempty : checkpoint.recovery_receipts = []) : R.Kept (w.put_checkpoint checkpoint) := by
  refine ⟨?_, hw.records, hextra⟩
  refine Reading.good_put hw.receipts ?_
  intro receipt hreceipt
  rw [hempty] at hreceipt
  exact absurd hreceipt not_mem_nil

section

variable {C : Course} {gate : SessionGate}

/-- **A whole ladder run** keeps the reading and ends as the course says, for every answer of the
surroundings. -/
theorem holds_zigzagzig (hR : R.Steady) (hS : Sound R (service.coordinator gate) envelope)
    (hC : Fits R C (service.coordinator gate) envelope)
    (hO : Owned R C (service.coordinator gate) envelope) (hw : R.Kept w) (hfree : C.Free w) :
    Holds handler R.Kept (execute_with_zigzagzig service envelope gate)
      (fun out w' => R.Kept w' ∧ ∀ execution, out = .ok execution → C.Ended execution w') w := by
  have herror {error : CommandError} {w : World} (hw : R.Kept w) : R.Kept w ∧
      ∀ execution, Except.error error = .ok execution → C.Ended execution w :=
    ⟨hw, fun _ heq => nomatch heq⟩
  unfold execute_with_zigzagzig
  split
  · exact herror hw
  refine holds_ask_bind hw ?_
  intro c₁
  have h₁ := hw.stands.call hR (.get_page _) trivial c₁
  cases (handler.handle (.get_page _) c₁ w).1 with
  | none => exact herror h₁.1
  | some page =>
    refine holds_ask_bind h₁.1 ?_
    intro c₂
    have h₂ := h₁.call hR (.load_checkpoint envelope.workflow_id) trivial c₂
    refine holds_ask_bind h₂.1 ?_
    intro c₃
    have h₃ := h₂.call hR .now trivial c₃
    apply holds_bind
    exact Holds.post (ends_execute_with_adaptation hR hS hC hO page h₃.1
      (hC.free_after hfree h₃.2) _) fun _ _ h => h

end

section

variable (hR : R.Steady) (hS : ∀ gate, Sound R (service.coordinator gate) envelope)
  (hC : ∀ gate, Fits R plain (service.coordinator gate) envelope)
  (hO : ∀ gate, Owned R plain (service.coordinator gate) envelope) (hw : R.Kept w)
  (session : Option Session) (vision_capability_ok one_shot_session_ok : Bool)

include hR hS hC hO hw

/-- **A submitted command** stores only what is justified, wherever its process stops. -/
theorem kept_submit :
    Holds handler R.Kept
      (submit service session envelope vision_capability_ok one_shot_session_ok)
      (fun _ => R.Kept) w := by
  unfold submit
  split
  · exact hw
  split
  · generalize session_gate service session envelope.command vision_capability_ok
      one_shot_session_ok = gate
    apply holds_bind
    refine (holds_zigzagzig hR (hS gate) (hC gate) (hO gate) hw trivial).post ?_
    intro result w' hw'
    cases result with
    | ok | error => exact hw'.1
  · exact (hO {} _ (.inl rfl) hw trivial).post fun _ _ h => h.1

/-- A submission keeps the reading, wherever it stops. -/
theorem kept_submitted_world (env : Env) (fuel : ℕ) :
    R.Kept (submitted_world service session envelope vision_capability_ok one_shot_session_ok env
      fuel w) := by
  have hstop := (kept_submit hR hS hC hO hw session vision_capability_ok one_shot_session_ok).stop
    env fuel 0
  unfold submitted_world
  revert hstop
  rcases stop handler env fuel 0
    (submit service session envelope vision_capability_ok one_shot_session_ok) w
    with ⟨_ | outcome, w'⟩
  · exact fun hkept => hkept
  · exact fun hkept => hkept

end

/-- **In every state of a service, what is stored is justified**, by a reading that may depend on
the commands that were submitted. -/
theorem Reached.kept {R : List CommandEnvelope → Reading} {s : State} (h : Reached service s)
    (hR : ∀ submitted, (R submitted).Steady) (hempty : (R []).Kept {})
    (hmore : ∀ {submitted w} envelope, (R submitted).Kept w → (R (submitted ++ [envelope])).Kept w)
    (hS : ∀ {submitted envelope} gate, envelope ∈ submitted →
      Sound (R submitted) (service.coordinator gate) envelope)
    (hC : ∀ {submitted envelope} gate, Fits (R submitted) plain (service.coordinator gate) envelope)
    (hO : ∀ {submitted envelope} gate, envelope ∈ submitted →
      Owned (R submitted) plain (service.coordinator gate) envelope)
    (hcheckpoint : ∀ {submitted w} checkpoint, (R submitted).Extra w →
      (R submitted).Extra (w.put_checkpoint checkpoint))
    (htear : ∀ {submitted} {w : World}, (R submitted).Extra w →
      (R submitted).Extra { w with log := { w.log with torn := true } }) :
    (R s.submitted).Kept s.world := by
  refine Reachable.invariant (I := fun s : State => (R s.submitted).Kept s.world) ?_ ?_ h
  · intro s hs
    rw [hs]
    exact hempty
  intro s action t hs hunreceipted ht
  cases action with
  | submit session envelope vision_capability_ok one_shot_session_ok env fuel =>
    cases ht
    have hmem : envelope ∈ s.submitted ++ [envelope] := mem_append_right _ mem_cons_self
    exact kept_submitted_world (hR _) (fun gate => hS gate hmem) hC (fun gate => hO gate hmem)
      (hmore envelope hs) session vision_capability_ok one_shot_session_ok env fuel
  | recover id env =>
    cases ht
    exact kept_recover (hR _) hs id env
  | checkpoint checkpoint =>
    cases ht
    exact kept_checkpoint (hcheckpoint checkpoint hs.extra) hs hunreceipted
  | tear =>
    cases ht
    exact ⟨hs.receipts, hs.records, htear hs.extra⟩

/-- A checkpoint was taken for the payment. -/
def pay_state : State := ⟨pay_world, []⟩

theorem reached_pay_state : Reached plain_service pay_state :=
  .next (.start rfl) rfl (a := .checkpoint pay_checkpoint) rfl

end BobbyBrowser.Submission
