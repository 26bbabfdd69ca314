/-
What an execution leaves in the journal.

The records of one attempt are those of its admission, then at most a prepared
result and the mark of its verification, then at most one terminal record. A
command runs on a worker only after its admission is complete. This holds wherever
the process stops, and it is all that the recovery of a command has to go by.
-/
import BobbyBrowser.ExecutorProtocol
import BobbyBrowser.Transition

set_option autoImplicit false

namespace BobbyBrowser.PageRuntime

open Outcomes Commands CommandLog Calls List
open CommandJournal (JournalError)

/-! ## What is read off the calls of a run -/

/-- The call makes a worker run a command. -/
def Call.runs : Call → Bool
  | .adaptive_execute _ _ _ _ => true
  | _ => false

variable (calls : List Answered)

/-- A worker was made to run a command. -/
def ran : Bool := calls.any fun answered => answered.1.runs

/-- The outcome that an acknowledged append has stored. -/
def stored_outcome : Answered → Option Outcome
  | ⟨.append _ content, .ok ()⟩ => content.outcome
  | _ => none

/-- The outcome that was stored last. -/
def acknowledged : Option Outcome := calls.reverse.findSome? stored_outcome

theorem ran_append (answered : Answered) :
    ran (calls ++ [answered]) = (ran calls || answered.1.runs) := by
  simp [ran]

theorem acknowledged_append (answered : Answered) :
    acknowledged (calls ++ [answered]) = (stored_outcome answered).or (acknowledged calls) := by
  rw [acknowledged, reverse_append, reverse_singleton, singleton_append, findSome?_cons]
  cases stored_outcome answered <;> rfl

/-- The call does not write to the journal. -/
def Call.quiet : Call → Bool
  | .append _ _ | .durable_prepare _ _ | .history _ => false
  | _ => true

variable {call : Call}

theorem quiet_of_resting {hand : Hand} (h : Resting hand call) : call.quiet = true := by
  cases call with
  | append | durable_prepare | history => exact h.elim
  | _ => rfl

theorem idle_of_resting {hand : Hand} (h : Resting hand call) : call.runs = false := by
  cases call with
  | adaptive_execute worker envelope page gate => exact h.elim
  | _ => rfl

variable {α : Type} (field : World → α)

theorem save_eq (w saved : World) (choice : SaveChoice)
    (h : field saved = field w) : field (w.save choice saved).2 = field w := by
  unfold World.save
  split
  · exact h
  · exact h
  · rfl

theorem persist_recovery_receipt_eq (w : World)
    (choice : SaveChoice) (receipt : Skills.RecoveryReceipt)
    (h : ∀ checkpoint, field (w.put_checkpoint checkpoint) = field w) :
    field (w.persist_recovery_receipt choice receipt).2 = field w := by
  unfold World.persist_recovery_receipt
  split
  · rfl
  split
  · split <;> rfl
  · split
    · rfl
    · exact save_eq field w _ choice (h _)

theorem transition_recovery_receipt_eq (w : World) (choice : SaveChoice)
    (identity : Skills.SkillCommandIdentity) (state : Skills.RecoveryReceiptState)
    (h : ∀ checkpoint, field (w.put_checkpoint checkpoint) = field w) :
    field (w.transition_recovery_receipt choice identity state).2 = field w := by
  unfold World.transition_recovery_receipt
  split
  · rfl
  split
  · rfl
  split
  · rfl
  · split
    · rfl
    · exact save_eq field w _ choice (h _)

/-- A quiet call changes only the checkpoints and the issuances. -/
theorem respond_eq (w : World) (hquiet : call.quiet) (choice : handler.Choice call)
    (hcheckpoint : ∀ checkpoint, field (w.put_checkpoint checkpoint) = field w)
    (hissuance : ∀ workflow_id issuance, field (w.put_issuance workflow_id issuance) = field w) :
    field (w.respond call choice).2 = field w := by
  cases call with
  | append | durable_prepare | history => nomatch hquiet
  | save_if_unchanged checkpoint => exact save_eq field w _ choice (hcheckpoint _)
  | save_skill_issuance | remove_skill_issuance => exact save_eq field w _ choice (hissuance _ _)
  | persist_recovery_receipt receipt =>
    exact persist_recovery_receipt_eq field w choice receipt hcheckpoint
  | transition_recovery_receipt identity state =>
    exact transition_recovery_receipt_eq field w choice identity state hcheckpoint
  | _ => rfl

section

variable (w : World) (choice : Log.AppendChoice × Option CommandError) (id : CommandId)
  (content : Content)

/-- Preparing a result changes only the log. -/
theorem durable_prepare_eq (field : World → α) (h : ∀ log, field { w with log := log } = field w) :
    field (w.durable_prepare choice id content).2 = field w := by
  unfold World.durable_prepare
  split
  · exact h _
  · split <;> exact h _

theorem durable_prepare_log :
    (w.durable_prepare choice id content).2.log = (w.log.append choice.1 id content).2 := by
  unfold World.durable_prepare
  rcases w.log.append choice.1 id content with ⟨_ | _, log⟩
  · rfl
  · simp only
    split <;> rfl

theorem durable_prepare_stored (h : (w.durable_prepare choice id content).1 = .ok ()) :
    (w.log.append choice.1 id content).1 = .ok () := by
  unfold World.durable_prepare at h
  rcases hr : w.log.append choice.1 id content with ⟨_ | _, log⟩
  · rw [hr] at h
    nomatch h
  · rfl

end

/-- Every call is noted with its answer, at the end. -/
theorem handle_calls (w : World) (call : Call) (choice : handler.Choice call) :
    (handler.handle call choice w).2.calls
      = w.calls ++ [⟨call, (handler.handle call choice w).1⟩] := by
  have hcalls : (w.respond call choice).2.calls = w.calls := by
    by_cases hquiet : call.quiet = true
    · exact respond_eq World.calls w hquiet choice (fun _ => rfl) fun _ _ => rfl
    cases call with
    | durable_prepare id content =>
      exact durable_prepare_eq w choice id content World.calls fun _ => rfl
    | append | history => rfl
    | _ => exact absurd rfl hquiet
  exact congrArg (· ++ _) hcalls

theorem calls_grow (w : World) (call : Call) (choice : handler.Choice call) :
    w.calls <+: (handler.handle call choice w).2.calls := by
  rw [handle_calls]
  exact prefix_append _ _

theorem mem_handle_calls {w : World} {choice : handler.Choice call} {answer : Res call}
    (h : (handler.handle call choice w).1 = answer) :
    (⟨call, answer⟩ : Answered) ∈ (handler.handle call choice w).2.calls := by
  rw [handle_calls, h]
  exact mem_append_right _ mem_cons_self

theorem holds_calls (p : Prog α) {base : List Answered} {w : World} (h : base <+: w.calls) :
    Holds handler (fun w' => base <+: w'.calls) p (fun _ w' => base <+: w'.calls) w := by
  refine (only_all p).holds ?_ h
  intro call _ choice w' hw'
  exact hw'.trans (calls_grow w' call choice)

theorem handle_log (w : World) (hquiet : call.quiet)
    (choice : handler.Choice call) : (handler.handle call choice w).2.log = w.log :=
  respond_eq World.log w hquiet choice (fun _ => rfl) fun _ _ => rfl

theorem stored_outcome_quiet (hquiet : call.quiet) (answer : Res call) :
    stored_outcome ⟨call, answer⟩ = none := by
  cases call with
  | append id content => nomatch hquiet
  | _ => rfl

/-! ## What is added to a command's records -/

/-- The log after some writes for one command: what was reserved still is, and the commands that
are not reserved have the records they had, this one with some more. -/
structure Wrote (before log : Log Content) (id : CommandId) (added : List Content) : Prop where
  reserved : ∀ other, other ∈ before.reserved → other ∈ log.reserved
  others : ∀ other, other ≠ id → other ∉ log.reserved → log.of other = before.of other
  own : id ∉ log.reserved → log.of id = before.of id ++ added

variable {before log : Log Content} {id : CommandId} {added : List Content}

theorem Wrote.start (before : Log Content) (id : CommandId) : Wrote before before id [] :=
  ⟨fun _ h => h, fun _ _ _ => rfl, fun _ => (append_nil _).symm⟩

section

variable (h : Wrote before log id added)

include h

theorem Wrote.kept {log' : Log Content} (hk : log.Kept log') :
    Wrote before log' id added where
  reserved other hother := hk.reserved other (h.reserved other hother)
  others other hne hfree := by
    rw [hk.of other hfree, h.others other hne (fun hr => hfree (hk.reserved other hr))]
  own hfree := by
    rw [hk.of id hfree, h.own (fun hr => hfree (hk.reserved id hr))]

theorem Wrote.push (x : Content) :
    Wrote before (log.push id x) id (added ++ [x]) where
  reserved := h.reserved
  others other hne hfree := by
    rw [Log.of_push_ne (Ne.symm hne)]
    exact h.others other hne hfree
  own hfree := by
    rw [Log.of_push_self, h.own hfree, append_assoc]

theorem Wrote.torn : Wrote before { log with torn := true } id added :=
  ⟨h.reserved, h.others, h.own⟩

/-- **An append** adds the record or not, and adds it when it succeeds. -/
theorem Wrote.append (choice : Log.AppendChoice) (x : Content) :
    Wrote before (log.append choice id x).2 id (added ++ [x]) ∨
      (∃ e, (log.append choice id x).1 = .error e) ∧
        Wrote before (log.append choice id x).2 id added := by
  obtain ⟨log', hk, hpush | ⟨herror, hsame | htorn⟩⟩ := Log.append_spec choice id x log
  · left
    rw [hpush]
    exact (h.kept hk).push x
  · right
    rw [hsame]
    exact ⟨herror, h.kept hk⟩
  · right
    rw [htorn]
    exact ⟨herror, (h.kept hk).torn⟩

end

/-- The log has these records of an attempt, and no outcome of it is known to be stored. -/
structure Writing (before : Log Content) (id : CommandId) (added : List Content) (w : World) :
    Prop where
  wrote : Wrote before w.log id added
  open_ended : acknowledged w.calls = none

/-- A record is there, or its write has failed. -/
def Landed {ε : Type} (before : Log Content) (id : CommandId) (added : List Content) (x : Content)
    (next : Except ε Unit × World) : Prop :=
  Writing before id (added ++ [x]) next.2 ∨ (∃ e, next.1 = .error e) ∧ Writing before id added next.2

section

variable (runtime : Runtime) (envelope : CommandEnvelope)

/-- The records of a complete admission. -/
def admissions : List Content :=
  [CommandPhase.accepted, .prepared, .executing].map (admission_record runtime envelope)

/-- A record between admission and end. -/
def Midway (content : Content) : Prop :=
  content.outcome = none ∧ (content.phase = .verifying ∨ content.prepared_result.isSome = true)

/-- **The records of one attempt**, with whether a worker ran it and the outcome that is known to
be stored. -/
inductive Added : Bool → Option Outcome → List Content → Prop
  | admitting (phases : List CommandPhase) (h : phases <+: [.accepted, .prepared, .executing]) :
    Added false none (phases.map (admission_record runtime envelope))
  | running (ran : Bool) (midway : List Content) (h : ∀ c ∈ midway, Midway c) :
    Added ran none (admissions runtime envelope ++ midway)
  | ended (ran : Bool) (midway : List Content) (h : ∀ c ∈ midway, Midway c)
      (phase : CommandPhase) (outcome : Outcome) (stored : Option Outcome)
      (hstored : stored = none ∨ stored = some outcome) :
    Added ran stored (admissions runtime envelope ++ midway
      ++ [{ phase := phase, outcome := some outcome }])

/-- Where an execution can stop. -/
def Stopped (before : Log Content) (w : World) : Prop :=
  ∃ added, Wrote before w.log envelope.command_id added ∧
    Added runtime envelope (ran w.calls) (acknowledged w.calls) added

/-- Where an execution stands between its admission and its end. -/
structure Running (before : Log Content) (midway : List Content) (w : World) : Prop
    extends Writing before envelope.command_id (admissions runtime envelope ++ midway) w where
  midway : ∀ c ∈ midway, Midway c

end

variable {runtime : Runtime} {envelope : CommandEnvelope} {midway : List Content} {w : World}

theorem Running.stopped (h : Running runtime envelope before midway w) :
    Stopped runtime envelope before w :=
  ⟨_, h.wrote, by rw [h.open_ended]; exact .running _ midway h.midway⟩

/-- **A quiet call** changes nothing of where an execution stands. -/
theorem Writing.quiet (h : Writing before id added w) (hquiet : call.quiet)
    (choice : handler.Choice call) : Writing before id added (handler.handle call choice w).2 := by
  refine ⟨?_, ?_⟩
  · rw [handle_log w hquiet]
    exact h.wrote
  · rw [handle_calls, acknowledged_append, stored_outcome_quiet hquiet]
    exact h.open_ended

theorem handle_append_answer (w : World) (id : CommandId) (x : Content)
    (choice : handler.Choice (.append id x)) :
    (handler.handle (.append id x) choice w).1 = (w.log.append choice id x).1 := rfl

theorem stored_outcome_append_ok (id : CommandId) (x : Content) :
    stored_outcome ⟨.append id x, .ok ()⟩ = x.outcome := rfl

theorem stored_outcome_append_error (id : CommandId) (x : Content) (e : JournalError) :
    stored_outcome ⟨.append id x, .error e⟩ = none := rfl

section

variable {x : Content}

/-- An append lands, or fails and may have left its record all the same. -/
theorem Writing.append (h : Writing before id added w) (hx : x.outcome = none)
    (choice : handler.Choice (.append id x)) :
    Landed before id added x (handler.handle (.append id x) choice w) := by
  have hopen : acknowledged (handler.handle (.append id x) choice w).2.calls = none := by
    rw [handle_calls, acknowledged_append]
    -- a record without an outcome stores none, whatever its append answers
    cases (handler.handle (.append id x) choice w).1 with
    | error e => exact h.open_ended
    | ok u =>
      rw [stored_outcome_append_ok, hx]
      exact h.open_ended
  exact (h.wrote.append choice x).imp (⟨·, hopen⟩) fun hfailed => ⟨hfailed.1, hfailed.2, hopen⟩

/-- A prepared record is written like any other. -/
theorem Writing.durable_prepare (h : Writing before id added w)
    (choice : handler.Choice (.durable_prepare id x)) :
    Landed before id added x (handler.handle (.durable_prepare id x) choice w) := by
  have hopen : acknowledged (handler.handle (.durable_prepare id x) choice w).2.calls = none := by
    rw [handle_calls, acknowledged_append]
    exact h.open_ended
  have hwrote := h.wrote.append choice.1 x
  rw [← durable_prepare_log w choice id x] at hwrote
  rcases hwrote with hwrote | ⟨⟨e, he⟩, hwrote⟩
  · exact .inl ⟨hwrote, hopen⟩
  · refine .inr ⟨?_, hwrote, hopen⟩
    cases hr : (handler.handle (.durable_prepare id x) choice w).1 with
    | error error => exact ⟨error, rfl⟩
    | ok u => nomatch he.symm.trans (durable_prepare_stored w choice id x hr)

end

section

variable (h : Running runtime envelope before midway w)

include h

/-- After the write of a record between admission and end: the attempt stands with the record when
the write has succeeded, and with or without it otherwise. -/
theorem Running.written {ε : Type} {x : Content} {next : Except ε Unit × World} (hx : Midway x)
    (hnext : Landed before envelope.command_id (admissions runtime envelope ++ midway) x next) :
    Stopped runtime envelope before next.2 ∧
      (next.1 = .ok () → Running runtime envelope before (midway ++ [x]) next.2) := by
  rcases hnext with hthere | ⟨⟨e, he⟩, hsame⟩
  · rw [append_assoc] at hthere
    have hrunning : Running runtime envelope before (midway ++ [x]) next.2 :=
      ⟨hthere, forall_mem_append.mpr ⟨h.midway, forall_mem_singleton.mpr hx⟩⟩
    exact ⟨hrunning.stopped, fun _ => hrunning⟩
  · exact ⟨Running.stopped ⟨hsame, h.midway⟩, fun hok => nomatch he.symm.trans hok⟩

/-- **The terminal record** is journaled, or not. -/
theorem Running.append_terminal (phase : CommandPhase) (outcome : Outcome)
    (choice : handler.Choice (.append envelope.command_id { phase, outcome := some outcome })) :
    Stopped runtime envelope before
      (handler.handle (.append envelope.command_id { phase, outcome := some outcome }) choice
        w).2 := by
  have hwrote := h.wrote.append choice { phase, outcome := some outcome }
  have hcalls := handle_calls w _ choice
  rw [handle_append_answer] at hcalls
  rcases hr : (w.log.append choice envelope.command_id
      { phase, outcome := some outcome }).1 with e | u
  · rw [hr] at hcalls
    have hack : acknowledged (handler.handle (.append envelope.command_id _) choice w).2.calls
        = none := by
      rw [hcalls, acknowledged_append, stored_outcome_append_error]
      exact h.open_ended
    rcases hwrote with hwrote | ⟨-, hwrote⟩
    · refine ⟨_, hwrote, ?_⟩
      rw [hack]
      exact .ended _ midway h.midway phase outcome none (.inl rfl)
    · exact Running.stopped ⟨⟨hwrote, hack⟩, h.midway⟩
  · rw [hr] at hcalls hwrote
    rcases hwrote with hwrote | ⟨⟨e, he⟩, -⟩
    · refine ⟨_, hwrote, ?_⟩
      rw [hcalls, acknowledged_append, stored_outcome_append_ok]
      exact .ended _ midway h.midway phase outcome _ (.inr rfl)
    · nomatch he

/-! ## Admission -/

end

/-- Where an execution stands while its admission is journaled. -/
structure Admitting (runtime : Runtime) (envelope : CommandEnvelope) (before : Log Content)
    (phases : List CommandPhase) (w : World) : Prop
    extends Writing before envelope.command_id
      (phases.map (admission_record runtime envelope)) w where
  journaled : phases <+: [.accepted, .prepared, .executing]
  not_ran : ran w.calls = false

variable {phases : List CommandPhase}

theorem Admitting.stopped (h : Admitting runtime envelope before phases w) :
    Stopped runtime envelope before w := by
  refine ⟨_, h.wrote, ?_⟩
  rw [h.not_ran, h.open_ended]
  exact .admitting phases h.journaled

theorem Admitting.running (h : Admitting runtime envelope before admission_phases w) :
    Running runtime envelope before [] w := by
  refine ⟨⟨?_, h.open_ended⟩, forall_mem_nil _⟩
  rw [append_nil]
  exact h.wrote

/-- The next phase of an admission is journaled, or ends it with what the journal has by then. -/
theorem Admitting.append (h : Admitting runtime envelope before phases w) {phase : CommandPhase}
    (hnext : phases ++ [phase] <+: admission_phases)
    (choice : handler.Choice (.append envelope.command_id (admission_record runtime envelope phase))) :
    let next := handler.handle (.append envelope.command_id
      (admission_record runtime envelope phase)) choice w
    Stopped runtime envelope before next.2 ∧
      (next.1 = .ok () → Admitting runtime envelope before (phases ++ [phase]) next.2) := by
  intro next
  have hnot_ran : ran next.2.calls = false := by
    rw [handle_calls, ran_append, h.not_ran]
    rfl
  have hwritten := h.toWriting.append (x := admission_record runtime envelope phase) rfl choice
  unfold Landed at hwritten
  rw [← map_singleton, ← map_append] at hwritten
  rcases hwritten with hthere | ⟨⟨e, he⟩, hsame⟩
  · have hadmitting : Admitting runtime envelope before (phases ++ [phase]) next.2 :=
      ⟨hthere, hnext, hnot_ran⟩
    exact ⟨hadmitting.stopped, fun _ => hadmitting⟩
  · -- the record is not there, so the append has failed
    refine ⟨Admitting.stopped ⟨hsame, h.journaled, hnot_ran⟩, fun hok => ?_⟩
    nomatch he.symm.trans hok

/-! ## The moves of an execution -/

/-- What the stage says of the journal. -/
def Stands (runtime : Runtime) (envelope : CommandEnvelope) (before : Log Content) :
    Stage → World → Prop
  | .admitting phases, w => Admitting runtime envelope before phases w
  | .ended _, w => Stopped runtime envelope before w
  | _, w => ∃ midway, Running runtime envelope before midway w

variable {stage : Stage}

section

variable (h : Stands runtime envelope before stage w)

include h

theorem Stands.stopped : Stopped runtime envelope before w := by
  cases stage with
  | admitting phases => exact Admitting.stopped h
  | ended outcome => exact h
  | _ =>
    obtain ⟨midway, h⟩ := h
    exact h.stopped

/-- A call that neither writes to the journal nor runs the command. -/
theorem Stands.quiet (hquiet : call.quiet)
    (hidle : call.runs = false) (choice : handler.Choice call) :
    Stands runtime envelope before stage (handler.handle call choice w).2 := by
  have hran : ran (handler.handle call choice w).2.calls = ran w.calls := by
    rw [handle_calls, ran_append, hidle, Bool.or_false]
  cases stage with
  | admitting phases =>
    exact ⟨h.toWriting.quiet hquiet choice, h.journaled, hran.trans h.not_ran⟩
  | ended outcome =>
    obtain ⟨added, hwrote, hadded⟩ := h
    refine ⟨added, handle_log w hquiet choice ▸ hwrote, ?_⟩
    rw [hran, handle_calls, acknowledged_append, stored_outcome_quiet hquiet]
    exact hadded
  | _ =>
    obtain ⟨midway, h⟩ := h
    exact ⟨midway, h.toWriting.quiet hquiet choice, h.midway⟩

/-- At the end of an execution its records are those of an attempt under way. -/
theorem Stands.concluding {outcome : Outcome} (hconcludes : Concludes envelope stage outcome) :
    ∃ midway, Running runtime envelope before midway w := by
  cases stage with
  | admitting phases =>
    rcases hconcludes with ⟨-, hadmitted⟩ | ⟨evidence, hsucceeds, -⟩
    · obtain rfl := hadmitted phases rfl
      exact ⟨[], Admitting.running h⟩
    · exact hsucceeds.elim
  | ended outcome =>
    rcases hconcludes with ⟨hfails, -⟩ | ⟨evidence, hsucceeds, -⟩
    · exact hfails.elim
    · exact hsucceeds.elim
  | _ => exact h

end

/-- **Every move of an execution** takes the journal from where one stage has it to where the next
one does. -/
theorem Stands.move {gate : SessionGate} : Moved handler (Moves envelope runtime gate)
    fun position => Stands runtime envelope before position.stage := by
  intro position call answer position' hmove choice w h hanswer
  cases hmove with
  | rest stage answer hresting =>
    exact h.quiet (quiet_of_resting hresting) (idle_of_resting hresting) choice
  | record hand answer hnext =>
    obtain ⟨hstop, hadmitting⟩ := Admitting.append h hnext choice
    cases answer with
    | ok u => exact hadmitting hanswer
    | error e => exact hstop
  | fingerprint | humanize => exact h.quiet rfl rfl choice
  | run page answer hready =>
    have hrunning : ∃ midway, Running runtime envelope before midway w := by
      cases hready with
      | first => exact ⟨[], Admitting.running h⟩
      | again failure note hclass hnote => exact h
    obtain ⟨midway, hrunning⟩ := hrunning
    cases answer with
    | ok | error => exact ⟨midway, hrunning.toWriting.quiet rfl choice, hrunning.midway⟩
  | prepare hand result answer =>
    obtain ⟨midway, h⟩ := h
    obtain ⟨hstop, hrunning⟩ := h.written ⟨rfl, .inr rfl⟩ (h.toWriting.durable_prepare choice)
    cases answer with
    | ok u => exact ⟨_, hrunning hanswer⟩
    | error e => exact hstop
  | mark hand answer =>
    obtain ⟨midway, h⟩ := h
    obtain ⟨hstop, hrunning⟩ := h.written ⟨rfl, .inl rfl⟩ (h.toWriting.append rfl choice)
    cases answer with
    | ok u => exact ⟨_, hrunning hanswer⟩
    | error e => exact hstop
  | verify typed_on answer hprimitive =>
    obtain ⟨midway, h⟩ := h
    cases answer with
    | ok | error => exact ⟨midway, h.toWriting.quiet rfl choice, h.midway⟩
  | finish hand phase answer hconcludes =>
    obtain ⟨midway, h⟩ := h.concluding hconcludes
    exact h.append_terminal phase _ choice

/-- **What an execution leaves behind**, wherever it ends or the process stops. -/
theorem execute_stopped (gate : SessionGate) (hcalls : w.calls = []) :
    Holds handler (Stopped runtime envelope w.log)
      (execute_with_session_gate runtime envelope gate)
      (fun _ => Stopped runtime envelope w.log) w := by
  have h : Admitting runtime envelope w.log [] w := by
    refine ⟨⟨Wrote.start w.log _, ?_⟩, nil_prefix, ?_⟩
    · rw [hcalls]
      rfl
    · rw [hcalls]
      rfl
  refine ((follows_execute runtime envelope gate).holds
    (fun _ _ h => h.stopped) Stands.move h).post ?_
  rintro outcome w' ⟨position, -, h⟩
  exact h.stopped

/-- **Write-ahead.** Wherever a call of `execute` stops, it has written records of its own command
only, the worker was made to run that command only after the whole admission, and an outcome comes
last. -/
theorem journaled_before_run (runtime : Runtime) (envelope : CommandEnvelope) (gate : SessionGate)
    (env : Env) (fuel n : ℕ) (w : World) :
    Stopped runtime envelope w.log (stop handler env fuel n
      (execute_with_session_gate runtime envelope gate) { w with calls := [] }).2 := by
  have h := (@execute_stopped runtime envelope { w with calls := [] } gate rfl).stop env fuel n
  split at h
  all_goals
    rename_i heq
    rw [heq]
    exact h

end BobbyBrowser.PageRuntime
