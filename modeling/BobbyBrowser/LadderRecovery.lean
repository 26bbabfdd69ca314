/-
Recovering a command after runs of the ladder.

Everything that a run of the ladder does for a command is journaled under the
identifier of the command: its own execution, the changed interaction, the
detection and the solving of a challenge, and the marks of recovery. After a stop
`recover_command` goes by the last outcome under the identifier, or by the last
phase. So it may report the completion of a detection as the command's own, and a
mark of recovery hides that the command was being executed.

What remains true is read off the calls: a completed outcome in the journal or in a
receipt was vouched for by an execution under the identifier that was verified, or
by a look at the page that showed the postcondition. It was the command's own if the
ladder ran nothing else under its identifier.
-/
import BobbyBrowser.LadderRuns

set_option autoImplicit false

namespace BobbyBrowser.Ladder

open Outcomes Commands PageRuntime List Option
open CommandLog Calls

variable {id : CommandId} {calls : List Answered} {worker : WorkerId} {outcome : Outcome}

/-! ## What vouches for a completed command -/

variable (submitted : List CommandEnvelope)

/-- The command was submitted, or is run for a submitted one. -/
def Known (e : CommandEnvelope) : Prop := ∃ envelope ∈ submitted, Own envelope e ∨ Aside envelope e

/-- The command is an intent. -/
def is_intent (e : CommandEnvelope) : Bool :=
  match e.command with
  | .intent _ => true
  | .primitive _ => false

/-- The answer shows that an execution under the identifier was verified, or that the postcondition
of a command submitted under it was seen. An intent verifies itself. -/
def Vouches (id : CommandId) : Answered → Prop
  | ⟨.verify _ e _ _, .ok _⟩ => e.command_id = id ∧ Known submitted e
  | ⟨.adaptive_execute _ e _ _, .ok execution⟩ =>
    e.command_id = id ∧ Known submitted e ∧ is_intent e = true ∧
      Evidence.intent_execution ∈ execution.evidence
  | ⟨.inspect _ page_id command, .ok evidence⟩ =>
    ∃ envelope ∈ submitted, envelope.command_id = id ∧ envelope.page_id = some page_id ∧
      command = observation envelope.command ∧
      postcondition_matched envelope.command evidence = true
  | _ => False

/-- Some call vouches for the command. -/
def Vouched (id : CommandId) (calls : List Answered) : Prop :=
  ∃ answered ∈ calls, Vouches submitted id answered

/-- The phases of a command that has not ended. -/
def underway : CommandPhase → Bool
  | .accepted | .prepared | .executing | .verifying | .recovering => true
  | .result_prepared | .completed | .failed => false

/-- A completed outcome is vouched for, and a record without an outcome or a result is of a command
that has not ended. -/
def Recorded (id : CommandId) (record : Content) (calls : List Answered) : Prop :=
  (∀ outcome, record.outcome = some outcome → verdict outcome = .completed →
    Vouched submitted id calls) ∧
  (record.outcome = none → record.prepared_result = none → underway record.phase = true)

/-- A record of the command is as described, unless its history is lost. -/
def Holding (log : Log Content) (id : CommandId) (P : Content → Prop) : Prop :=
  id ∈ log.reserved ∨ ∃ record ∈ log.of id, P record

/-- The journal says what the command is, and that it was being executed. -/
def Admitted (log : Log Content) (id : CommandId) : Prop :=
  Holding log id (fun record => record.envelope.isSome = true) ∧
    Holding log id (fun record => record.phase = .executing)

/-- Every command that a worker was made to run was admitted. -/
def Begun (w : World) : Prop :=
  ∀ answered ∈ w.calls, ∀ worker e page gate,
    answered.1 = .adaptive_execute worker e page gate → Admitted w.log e.command_id

/-- Completed outcomes are vouched for, and some commands were admitted. -/
def vouching (admitted : List CommandId) : Reading where
  Fit identity v calls := v = .completed → Vouched submitted identity.command_id calls
  Note := Recorded submitted
  Extra w := Begun w ∧ ∀ id ∈ admitted, Admitted w.log id

variable {submitted} {admitted : List CommandId} {w : World}

theorem Vouched.later (h : Vouched submitted id calls)
    (answered : Answered) : Vouched submitted id (calls ++ [answered]) := by
  obtain ⟨vouching, hmem, hvouches⟩ := h
  exact ⟨vouching, mem_append_left _ hmem, hvouches⟩

/-- What a call does to the records of a command that is not reserved is to add to them. -/
theorem handle_grows (w : World) (call : Call) (choice : handler.Choice call) (id : CommandId)
    (hfree : id ∉ (handler.handle call choice w).2.log.reserved) :
    id ∉ w.log.reserved ∧ w.log.of id <+: (handler.handle call choice w).2.log.of id := by
  have happend : ∀ (choice : Log.AppendChoice) (other : CommandId) (content : Content),
      id ∉ (w.log.append choice other content).2.reserved →
      id ∉ w.log.reserved ∧ w.log.of id <+: (w.log.append choice other content).2.of id := by
    intro choice other content hfree
    obtain ⟨log', hkept, hpush | ⟨-, hsame | htorn⟩⟩ := Log.append_spec choice other content w.log
    · rw [hpush] at hfree ⊢
      refine ⟨fun hr => hfree (hkept.reserved id hr), ?_⟩
      have hof := hkept.of id hfree
      by_cases hother : other = id
      · rw [hother, Log.of_push_self, hof]
        exact prefix_append _ _
      · rw [Log.of_push_ne hother, hof]
    · rw [hsame] at hfree ⊢
      rw [hkept.of id hfree]
      exact ⟨fun hr => hfree (hkept.reserved id hr), prefix_rfl⟩
    · rw [htorn] at hfree ⊢
      have hof : log'.of id = w.log.of id := hkept.of id hfree
      exact ⟨fun hr => hfree (hkept.reserved id hr), hof ▸ prefix_rfl⟩
  by_cases hquiet : call.quiet = true
  · rw [handle_log w hquiet choice] at hfree ⊢
    exact ⟨hfree, prefix_rfl⟩
  cases call with
  | append other content => exact happend choice other content hfree
  | durable_prepare other content =>
    have hgrows := happend (Prod.fst choice) other content
    rw [← durable_prepare_log w choice other content] at hgrows
    exact hgrows hfree
  | history other =>
    have hkept := (Log.history_spec choice other w.log).1
    refine ⟨fun hr => hfree (hkept.reserved id hr), ?_⟩
    have hof := hkept.of id hfree
    exact hof ▸ prefix_rfl
  | _ => exact absurd rfl hquiet

variable {P : Content → Prop}

theorem Holding.handle (h : Holding w.log id P) (call : Call)
    (choice : handler.Choice call) : Holding (handler.handle call choice w).2.log id P := by
  by_cases hreserved : id ∈ (handler.handle call choice w).2.log.reserved
  · exact .inl hreserved
  · obtain ⟨hfree, hgrown⟩ := handle_grows w call choice id hreserved
    obtain ⟨record, hrecord, hp⟩ := h.resolve_left hfree
    exact .inr ⟨record, hgrown.subset hrecord, hp⟩

/-- A record whose append succeeds is in the log. -/
theorem holding_append {content : Content} (hp : P content)
    (choice : handler.Choice (.append id content))
    (hok : (handler.handle (.append id content) choice w).1 = .ok ()) :
    Holding (handler.handle (.append id content) choice w).2.log id P := by
  change (w.log.append choice id content).1 = .ok () at hok
  change Holding (w.log.append choice id content).2 id P
  obtain ⟨log', -, hpush | ⟨⟨error, herror⟩, -⟩⟩ := Log.append_spec choice id content w.log
  · rw [hpush]
    refine .inr ⟨content, ?_, hp⟩
    rw [Log.of_push_self]
    exact mem_append_right _ mem_cons_self
  · rw [herror] at hok
    nomatch hok

theorem Admitted.handle (h : Admitted w.log id) (call : Call)
    (choice : handler.Choice call) : Admitted (handler.handle call choice w).2.log id :=
  ⟨h.1.handle call choice, h.2.handle call choice⟩

/-- Commands that were begun remain so, and a call that runs an admitted command begins it. -/
theorem Begun.handle (h : Begun w) (call : Call) (choice : handler.Choice call)
    (hrun : ∀ worker e page gate, call = .adaptive_execute worker e page gate →
      Admitted w.log e.command_id) : Begun (handler.handle call choice w).2 := by
  intro answered hmem worker e page gate hcall
  rw [handle_calls] at hmem
  rcases mem_append.mp hmem with hmem | hmem
  · exact (h answered hmem worker e page gate hcall).handle call choice
  · rw [mem_singleton.mp hmem] at hcall
    exact (hrun worker e page gate hcall).handle call choice

/-- More calls take nothing from what vouches for an outcome. -/
theorem steady_vouching : (vouching submitted admitted).Steady where
  fit_later h answered hcompleted := (h hcompleted).later answered
  note_later h answered :=
    ⟨fun outcome hsome hcompleted => (h.1 outcome hsome hcompleted).later answered, h.2⟩
  extra_call := by
    rintro call hidle choice w ⟨hbegun, hadmitted⟩
    refine ⟨hbegun.handle call choice ?_, fun id hid => (hadmitted id hid).handle call choice⟩
    intro worker e page gate hcall
    rw [hcall] at hidle
    nomatch hidle
  counted_call _ _ _ := rfl

/-! ## One execution -/

variable {runtime : Runtime} {e : CommandEnvelope} {gate : SessionGate}

theorem allowed_of_resting {hand : Hand} {call : Call} (h : Resting hand call) (R : Reading)
    (calls : List Answered) : R.Allowed calls call := by
  cases call with
  | append | durable_prepare | save_if_unchanged | persist_recovery_receipt | adaptive_execute =>
    exact h.elim
  | _ => exact trivial

theorem recorded_underway {record : Content} (houtcome : record.outcome = none)
    (h : underway record.phase) (id : CommandId) (calls : List Answered) :
    Recorded submitted id record calls := by
  refine ⟨?_, fun _ _ => h⟩
  intro outcome hsome
  rw [houtcome] at hsome
  nomatch hsome

theorem verdict_ne (h : Uncompleted outcome) : verdict outcome ≠ .completed := by
  cases outcome with
  | completed id evidence => exact absurd rfl (h id evidence)
  | _ => nofun

/-- **Running a command that was admitted** keeps the reading. -/
theorem kept_run (hw : (vouching submitted admitted).Kept w)
    (hadmitted : Admitted w.log e.command_id) {page : Option PageState}
    (choice : handler.Choice (.adaptive_execute worker e page gate)) :
    (vouching submitted admitted).Kept
      (handler.handle (.adaptive_execute worker e page gate) choice w).2 := by
  refine ⟨?_, ?_, ?_, ?_⟩
  · intro workflow_id checkpoint hsome receipt hreceipt
    exact steady_vouching.fit_later (hw.receipts workflow_id checkpoint hsome receipt hreceipt) _
  · intro id hfree record hrecord
    exact steady_vouching.note_later (hw.records id hfree record hrecord) _
  · apply hw.extra.1.handle
    intro worker' e' page' gate' hcall
    injection hcall with _ henvelope _ _
    rw [← henvelope]
    exact hadmitted
  · exact fun id hid => (hw.extra.2 id hid).handle _ choice

/-- An outcome that is reported as completed is vouched for. -/
def Truthful (submitted : List CommandEnvelope) (id : CommandId) (outcome : Outcome)
    (calls : List Answered) : Prop :=
  verdict outcome = .completed → Vouched submitted id calls

/-- What the stage of an execution says of the journal and of the calls. -/
def Stated (submitted : List CommandEnvelope) (runtime : Runtime) (e : CommandEnvelope)
    (w : World) : Stage → Prop
  | .admitting phases =>
    ∀ phase ∈ phases, Holding w.log e.command_id (· = admission_record runtime e phase)
  | .failed _ _ => Admitted w.log e.command_id
  | .ran _ evidence | .verifying evidence => ∃ worker page gate answer,
    (⟨.adaptive_execute worker e page gate, .ok answer⟩ : Answered) ∈ w.calls ∧
      (Evidence.intent_execution ∈ evidence → Evidence.intent_execution ∈ answer.evidence)
  | .verified _ => Vouched submitted e.command_id w.calls
  | .unverified _ => True
  | .ended outcome => Truthful submitted e.command_id outcome w.calls

variable {stage : Stage} {call : Call}

theorem Truthful.of_uncompleted (h : Uncompleted outcome) : Truthful submitted id outcome calls :=
  fun hcompleted => absurd hcompleted (verdict_ne h)

theorem Vouched.handle (h : Vouched submitted id w.calls) (choice : handler.Choice call) :
    Vouched submitted id (handler.handle call choice w).2.calls := by
  rw [handle_calls]
  exact h.later _

section

variable (h : Stated submitted runtime e w stage)

include h

/-- A call keeps what the stage of an execution states. -/
theorem Stated.handle (choice : handler.Choice call) :
    Stated submitted runtime e (handler.handle call choice w).2 stage := by
  have hcalls := (calls_grow w call choice).subset
  cases stage with
  | admitting phases => exact fun phase hphase => (h phase hphase).handle call choice
  | failed runs failure => exact Admitted.handle h call choice
  | ran | verifying =>
    obtain ⟨worker, page, gate, answer, hmem, hanswer⟩ := h
    exact ⟨worker, page, gate, answer, hcalls hmem, hanswer⟩
  | verified evidence => exact Vouched.handle h choice
  | unverified error => exact trivial
  | ended outcome => exact fun hcompleted => (h hcompleted).handle choice

/-- A command that is ready to run has been admitted in the journal. -/
theorem Stated.begun {runs : ℕ} {note : List Evidence}
    (hready : Ready e stage runs note) : Admitted w.log e.command_id := by
  have hof {record : Content} {P : Content → Prop} (hp : P record)
      (hrecord : Holding w.log e.command_id (· = record)) : Holding w.log e.command_id P := by
    refine hrecord.imp_right ?_
    rintro ⟨_, hmem, rfl⟩
    exact ⟨_, hmem, hp⟩
  cases hready with
  | first =>
    -- the first record says what the command is, the last that it is being executed
    exact ⟨hof rfl (h .accepted (by decide)), hof rfl (h .executing (by decide))⟩
  | again failure note hclass hnote => exact h

/-- **A completed execution is vouched for.** An intent has left its record with the worker that
ran it. -/
theorem Stated.concludes (hknown : Known submitted e)
    (hconcludes : Concludes e stage outcome) : Truthful submitted e.command_id outcome w.calls := by
  rcases hconcludes with ⟨hfails, -⟩ | ⟨evidence, hsucceeds, rfl⟩
  · exact Truthful.of_uncompleted hfails.uncompleted
  intro _
  cases stage with
  | verifying found =>
    obtain ⟨⟨intent, hintent⟩, hrecord, -⟩ := hsucceeds
    obtain ⟨worker, page, gate, answer, hmem, hanswer⟩ := h
    refine ⟨_, hmem, rfl, hknown, ?_, hanswer ?_⟩
    · rw [is_intent, hintent]
    · obtain ⟨record, hrecord, hsame⟩ := any_eq_true.mp hrecord
      rw [of_decide_eq_true hsame] at hrecord
      exact hrecord
  | verified found => exact h
  | _ => exact hsucceeds.elim

end

theorem recorded_terminal (h : Truthful submitted id outcome calls) (phase : CommandPhase) :
    Recorded submitted id (terminal_record runtime phase outcome) calls := by
  refine ⟨?_, fun hnone => absurd hnone (some_ne_none _)⟩
  intro safe hsafe hcompleted
  rw [← some.inj hsafe, verdict_journal_safe] at hcompleted
  exact h hcompleted

/-- **Every move keeps the reading**, and the stage that it leads to is true. -/
theorem stated_move (hknown : Known submitted e) :
    Moved handler (Moves e runtime gate) fun position w =>
      (vouching submitted admitted).Kept w ∧ Stated submitted runtime e w position.stage := by
  rintro position call answer position' hmove choice w ⟨hw, hstage⟩ hanswer
  have hmem := mem_handle_calls hanswer
  have hkept (hallowed : (vouching submitted admitted).Allowed w.calls call) :
      (vouching submitted admitted).Kept (handler.handle call choice w).2 :=
    hw.call steady_vouching call hallowed choice
  cases hmove with
  | rest stage answer hresting =>
    exact ⟨hkept (allowed_of_resting hresting _ _), hstage.handle choice⟩
  | @record hand phases phase answer hnext =>
    have hunderway : underway phase = true := by
      have hphase := hnext.subset (mem_append_right _ mem_cons_self)
      simp only [mem_cons, not_mem_nil, or_false] at hphase
      rcases hphase with rfl | rfl | rfl <;> rfl
    refine ⟨hkept (recorded_underway rfl hunderway _ _), ?_⟩
    cases answer with
    | error error => exact Truthful.of_uncompleted (uncompleted_journal_failure error _)
    | ok u =>
      refine forall_mem_append.mpr ⟨fun other hbefore => (hstage other hbefore).handle _ choice,
        forall_mem_singleton.mpr ?_⟩
      exact holding_append (P := (· = admission_record runtime e phase)) rfl choice hanswer
  | fingerprint | humanize =>
    exact ⟨hkept trivial, hstage.handle choice⟩
  | @run stage worker runs note page answer hready =>
    have hadmitted := Stated.begun hstage hready
    refine ⟨kept_run hw hadmitted choice, ?_⟩
    cases answer with
    | error failure => exact hadmitted.handle _ choice
    | ok execution =>
      refine ⟨worker, page, gate, execution, hmem, ?_⟩
      intro hrecord
      refine (mem_append.mp hrecord).resolve_right ?_
      cases hready with
      | first => exact not_mem_nil
      | again failure note hclass hnote =>
        rcases hnote with rfl | rfl
        · exact not_mem_nil
        · exact fun hin => nomatch mem_singleton.mp hin
  | prepare hand result answer =>
    refine ⟨hkept ⟨nofun, nofun⟩, ?_⟩
    cases answer with
    | error error => exact Truthful.of_uncompleted nofun
    | ok u => exact hstage.handle choice
  | mark hand answer =>
    refine ⟨hkept (recorded_underway rfl rfl _ _), ?_⟩
    cases answer with
    | error error => exact Truthful.of_uncompleted (uncompleted_journal_failure error _)
    | ok u => exact hstage.handle choice
  | verify typed_on answer hprimitive =>
    refine ⟨hkept trivial, ?_⟩
    cases answer with
    | error error => exact trivial
    | ok evidence => exact ⟨_, hmem, rfl, hknown⟩
  | finish hand phase answer hconcludes =>
    have htruthful := Stated.concludes hstage hknown hconcludes
    refine ⟨hkept (recorded_terminal htruthful phase), ?_⟩
    cases answer with
    | error error => exact Truthful.of_uncompleted (uncompleted_journal_failure error _)
    | ok u => exact fun hcompleted => (htruthful hcompleted).handle choice

/-! ## Runs of the ladder -/

section

variable {c : Coordinator} {envelope : CommandEnvelope}

/-- **An execution keeps the reading**, and what it reports as completed is vouched for. -/
theorem holds_known (hknown : Known submitted e) (hw : (vouching submitted admitted).Kept w) :
    Holds handler (vouching submitted admitted).Kept (execute_with_session_gate runtime e gate)
      (fun outcome w' => (vouching submitted admitted).Kept w' ∧
        Truthful submitted e.command_id outcome w'.calls) w := by
  refine ((follows_execute runtime e gate).holds
    (fun _ _ h => h.1) (stated_move hknown) ⟨hw, fun _ hphase => nomatch hphase⟩).post ?_
  rintro outcome w' ⟨position, hended | hfails, hw', hstage⟩
  · rw [hended] at hstage
    exact ⟨hw', hstage⟩
  · exact ⟨hw', Truthful.of_uncompleted hfails.uncompleted⟩

variable (hsubmitted : envelope ∈ submitted)

include hsubmitted

/-- **The reading is sound for the ladder**: it completes a command itself only by a postcondition
that was seen, which vouches for it. -/
theorem sound_vouching : Sound (vouching submitted admitted) c envelope where
  recovering _ := ⟨fun _ hnone => absurd hnone.symm (some_ne_none _), fun _ _ => rfl⟩
  terminal hfit := recorded_terminal hfit _
  uncertain _ hcompleted := nomatch hcompleted
  restarted _ hcompleted := nomatch hcompleted
  refused _ _ hcompleted := nomatch hcompleted
  observed hpage hmem hmatched _ := ⟨_, hmem, envelope, hsubmitted, rfl, hpage, rfl, hmatched⟩
  aside _ haside _ _ hw :=
    ((holds_known ⟨envelope, hsubmitted, .inr haside⟩ hw.1).and (holds_calls _ hw.2.grown)).mono
      (fun _ h => ⟨h.1, h.2, rfl⟩) fun _ _ h => ⟨h.1.1, h.2, rfl⟩

theorem owned_vouching : Owned (vouching submitted admitted) plain c envelope := by
  intro e gate hown w hw _
  refine (holds_known ⟨envelope, hsubmitted, .inl hown⟩ hw).post ?_
  rintro outcome w' ⟨hw', htruthful⟩
  refine ⟨hw', fun hcompleted _ => ?_, fun hne => hne⟩
  have hvouched := htruthful hcompleted
  rw [hown.same.1] at hvouched
  exact hvouched

end

/-- Submitting more commands takes no voucher away. -/
theorem Vouched.more {more : List CommandEnvelope} (hmore : submitted ⊆ more)
    (h : Vouched submitted id calls) : Vouched more id calls := by
  have hknown {e : CommandEnvelope} : Known submitted e → Known more e :=
    fun ⟨envelope, hmem, h⟩ => ⟨envelope, hmore hmem, h⟩
  obtain ⟨⟨call, answer⟩, hmem, hvouches⟩ := h
  refine ⟨⟨call, answer⟩, hmem, ?_⟩
  cases call with
  | verify worker e evidence typed_on =>
    cases answer with
    | ok evidence => exact ⟨hvouches.1, hknown hvouches.2⟩
    | error error => exact hvouches.elim
  | adaptive_execute worker e page gate =>
    cases answer with
    | ok execution => exact ⟨hvouches.1, hknown hvouches.2.1, hvouches.2.2⟩
    | error failure => exact hvouches.elim
  | inspect worker page_id command =>
    cases answer with
    | ok evidence =>
      obtain ⟨envelope, hsubmitted, hrest⟩ := hvouches
      exact ⟨envelope, hmore hsubmitted, hrest⟩
    | error error => exact hvouches.elim
  | _ => exact hvouches.elim

/-- What was kept for some submissions is kept for more. -/
theorem kept_more {more : List CommandEnvelope} (hmore : submitted ⊆ more)
    (hw : (vouching submitted admitted).Kept w) : (vouching more admitted).Kept w where
  receipts workflow_id checkpoint hsome receipt hreceipt hcompleted :=
    (hw.receipts workflow_id checkpoint hsome receipt hreceipt hcompleted).more hmore
  records id hfree record hrecord :=
    ⟨fun outcome hsome hcompleted =>
        ((hw.records id hfree record hrecord).1 outcome hsome hcompleted).more hmore,
      (hw.records id hfree record hrecord).2⟩
  extra := hw.extra

end BobbyBrowser.Ladder

namespace BobbyBrowser.Submission

open Outcomes Commands PageRuntime List Option
open CommandLog Ladder
open PageRuntime (World Env handler)

variable {service : Service} {id : CommandId} {calls : List Answered} {worker : WorkerId}
  {outcome : Outcome}

/-- **In every state of a service, completed outcomes are vouched for.** -/
theorem Reached.vouching {s : State} (h : Reached service s) :
    (Ladder.vouching s.submitted []).Kept s.world := by
  refine h.kept (R := fun submitted => Ladder.vouching submitted [])
    (fun _ => steady_vouching) ?_ (fun _ hs => kept_more (subset_append_left _ _) hs)
    (fun _ hmem => sound_vouching hmem) (fun _ => fits_plain ?_)
    (fun _ hmem => owned_vouching hmem) (fun _ hextra => hextra) (fun hextra => hextra)
  · exact ⟨nofun, fun _ _ _ hrecord => absurd hrecord not_mem_nil,
      fun _ hmem => absurd hmem not_mem_nil, nofun⟩
  · exact fun calls hne => recorded_terminal (fun hcompleted => absurd hcompleted hne) _

/-- What `recover_command` returns is neither completed nor retryable, or is decided by the records
of the command. -/
theorem recovered_by_records (runtime : Runtime) (id : CommandId) (env : Env) (w : World) :
    (verdict (recovered runtime id env w) ≠ .completed ∧
      retryable (recovered runtime id env w) = false) ∨
    (id ∉ w.log.reserved ∧ Decides (w.log.of id) (recovered runtime id env w)) := by
  have hasks {outcome : Outcome} (h : needs_reconciliation outcome = true) :
      verdict outcome ≠ .completed ∧ retryable outcome = false := by
    cases outcome with
    | needs_reconciliation id error evidence => exact ⟨nofun, rfl⟩
    | _ => nomatch h
  by_cases hjournal : runtime.journal = true
  · obtain ⟨hdamaged, hdecides⟩ := @recovered_spec runtime id hjournal env w
    by_cases hclean : ∃ scan, read id env w = .ok scan ∧ scan.damaged = false
    · obtain ⟨scan, hread, hclean⟩ := hclean
      have hspec := hdecides scan hread hclean
      obtain ⟨hkept, hrecords⟩ := Log.history_spec (env.choose 0 (.history id)) id w.log
      obtain ⟨hfree, hof⟩ := hrecords scan hread hclean
      rw [hof] at hspec
      exact .inr ⟨fun hr => hfree (hkept.reserved id hr), hspec⟩
    · refine .inl (hasks (hdamaged fun scan hread => ?_))
      by_contra hdamaged
      exact hclean ⟨scan, hread, eq_false_of_ne_true hdamaged⟩
  · left
    unfold recovered recover_command
    rw [Bool.not_eq_true] at hjournal
    rw [hjournal]
    exact ⟨nofun, rfl⟩

theorem asks_or_retryable_ne (h : needs_reconciliation outcome = true ∨ retryable outcome = true) :
    verdict outcome ≠ .completed := by
  cases outcome with
  | completed id evidence =>
    rcases h with h | h
    · nomatch h
    · nomatch h
  | _ => nofun

/-- The command, or what the ladder runs in its place or for it, was given to a worker. -/
def Dispatched (id : CommandId) (calls : List Answered) : Prop :=
  ∃ answered ∈ calls, ∃ worker e page gate,
    answered.1 = .adaptive_execute worker e page gate ∧ e.command_id = id

/-- The last durable outcome is retryable. -/
def EndedRetryable (records : List Content) : Prop :=
  ∃ outcome, last_outcome records = some outcome ∧ retryable outcome = true

/-- The first envelope under the identifier is of a command that may be repeated. -/
def Repeatable (records : List Content) : Prop :=
  ∃ envelope, records.findSome? Content.envelope = some envelope ∧
    envelope.command.class = .replayable

/-- Nothing durable tells how the command ended, and its last record, after one that says it was
being executed, is a mark of recovery or of a later admission. -/
def Hidden (records : List Content) : Prop :=
  last_outcome records = none ∧ last_prepared records = none ∧
    (∃ record ∈ records, record.phase = .executing) ∧
    ∃ record, records.getLast? = some record ∧
      record.phase ∈ [CommandPhase.accepted, .prepared, .recovering]

variable {records : List Content}

theorem mem_of_last_outcome
    (h : last_outcome records = some outcome) : ∃ record ∈ records, record.outcome = some outcome := by
  obtain ⟨record, hrecord, houtcome⟩ := exists_of_findSome?_eq_some h
  exact ⟨record, mem_reverse.mp hrecord, houtcome⟩

/-- A retryable outcome that no record holds comes from a command that may be repeated, or from a
history that hides the execution. -/
theorem hidden_of_decides (hdecides : Decides records outcome) (hretryable : retryable outcome)
    (hopen : last_outcome records = none)
    (henvelope : ∃ record ∈ records, record.envelope.isSome = true)
    (hexecuting : ∃ record ∈ records, record.phase = .executing)
    (hunderway : ∀ record ∈ records, record.outcome = none → record.prepared_result = none →
      underway record.phase = true) : Repeatable records ∨ Hidden records := by
  have hnone {β : Type} {f : Content → Option β} (h : records.reverse.findSome? f = none) :
      ∀ record ∈ records, f record = none := by
    intro record hrecord
    exact findSome?_eq_none_iff.mp h record (mem_reverse.mpr hrecord)
  rw [Decides, hopen] at hdecides
  simp only at hdecides
  split at hdecides
  · -- asking for reconciliation is not retryable
    exact absurd hretryable (needs_reconciliation_ne hdecides)
  rename_i hreached
  simp only [Bool.or_eq_true, not_or, Bool.not_eq_true, isSome_eq_false_iff,
    isNone_iff_eq_none] at hreached
  obtain ⟨hprepared, hreached⟩ := hreached
  obtain ⟨first, hfirst⟩ : ∃ first, records.findSome? Content.envelope = some first := by
    rw [← isSome_iff_exists, findSome?_isSome_iff]
    exact henvelope
  obtain ⟨last, hlast⟩ : ∃ last, records.getLast? = some last := by
    obtain ⟨record, hrecord, -⟩ := henvelope
    exact ⟨_, getLast?_eq_some_getLast (ne_nil_of_mem hrecord)⟩
  -- a command that may be replayed is repeated on purpose
  by_cases hclass : first.command.class = .replayable
  · exact .inl ⟨first, hfirst, hclass⟩
  have hmem := mem_of_getLast? hlast
  have hphase := hunderway last hmem (hnone hopen last hmem) (hnone hprepared last hmem)
  refine .inr ⟨hopen, hprepared, hexecuting, last, hlast, ?_⟩
  rw [may_have_reached, hfirst, hlast] at hreached
  simp only [any_some, map_some, Bool.and_eq_false_iff, decide_eq_false_iff_not,
    not_not, Bool.or_eq_false_iff] at hreached
  obtain ⟨hexecuting, hverifying⟩ := hreached.resolve_left hclass
  -- the guard looks at the last phase only, and three phases escape it
  revert hphase hexecuting hverifying
  cases last.phase with
  | accepted | prepared | recovering => decide
  | executing => exact fun _ hne _ => absurd rfl hne
  | verifying => exact fun _ _ hne => absurd rfl hne
  | _ => exact fun hfalse => by cases hfalse

/-- What recovery goes by. A command is reported as completed only if an execution under its
identifier was verified, or its postcondition was seen on its page. And if it was given to a worker,
it is reported as retryable only if its last durable outcome is, if it may be repeated, or if its
records hide that it was being executed. -/
theorem recovered_by_causes {s : State} (h : Reached service s) (id : CommandId) (env : Env) :
    (verdict (recovered service.pages id env s.world) = .completed →
      Vouched s.submitted id s.world.calls) ∧
    (Dispatched id s.world.calls → retryable (recovered service.pages id env s.world) = true →
      EndedRetryable (s.world.log.of id) ∨ Repeatable (s.world.log.of id) ∨
        Hidden (s.world.log.of id)) := by
  have hkept := h.vouching
  rcases recovered_by_records service.pages id env s.world with ⟨hne, hfinal⟩ | ⟨hfree, hdecides⟩
  · refine ⟨fun hcompleted => absurd hcompleted hne, fun _ hretryable => ?_⟩
    rw [hfinal] at hretryable
    nomatch hretryable
  have hrecords := hkept.records id hfree
  constructor
  · intro hcompleted
    cases hlast : last_outcome (s.world.log.of id) with
    | none =>
      rw [Decides, hlast] at hdecides
      simp only at hdecides
      split at hdecides
      · exact absurd hcompleted (asks_or_retryable_ne (.inl hdecides))
      · exact absurd hcompleted (asks_or_retryable_ne (.inr hdecides))
    | some outcome =>
      rw [Decides, hlast] at hdecides
      obtain ⟨record, hrecord, houtcome⟩ := mem_of_last_outcome hlast
      rw [hdecides] at hcompleted
      exact (hrecords record hrecord).1 outcome houtcome hcompleted
  rintro ⟨answered, hmem, worker, e, page, gate, hcall, rfl⟩ hretryable
  obtain ⟨henvelope, hexecuting⟩ := hkept.extra.1 answered hmem worker e page gate hcall
  cases hlast : last_outcome (s.world.log.of e.command_id) with
  | none =>
    exact .inr (hidden_of_decides hdecides hretryable hlast (henvelope.resolve_left hfree)
      (hexecuting.resolve_left hfree) fun record hrecord => (hrecords record hrecord).2)
  | some outcome =>
    rw [Decides, hlast] at hdecides
    rw [hdecides] at hretryable
    exact .inl ⟨outcome, hlast, hretryable⟩

/-! ### The command's own execution -/

/-- The command that a worker is made to run, or whose result is verified. -/
def carried : Call → Option CommandEnvelope
  | .adaptive_execute _ e _ _ | .verify _ e _ _ => some e
  | _ => none

/-- What was run and verified under the identifier is a submitted command or its other interaction,
not a detection or a solving. -/
def Unaided (submitted : List CommandEnvelope) (id : CommandId) (calls : List Answered) : Prop :=
  ∀ answered ∈ calls, ∀ e ∈ carried answered.1, e.command_id = id →
    ∃ envelope ∈ submitted, Own envelope e

/-- The answer shows that the command itself was verified, or that its postcondition was seen. -/
def OwnVouches (submitted : List CommandEnvelope) (id : CommandId) (answered : Answered) : Prop :=
  Vouches submitted id answered ∧
    ∀ e ∈ carried answered.1, ∃ envelope ∈ submitted, Own envelope e

/-- Where no detection is taken for the command, what vouches for its completion is a run of its
own. -/
theorem Unaided.own {submitted : List CommandEnvelope} (h : Unaided submitted id calls)
    (hvouched : Vouched submitted id calls) : ∃ answered ∈ calls, OwnVouches submitted id answered := by
  obtain ⟨answered, hmem, hvouches⟩ := hvouched
  refine ⟨answered, hmem, hvouches, fun e he => h answered hmem e he ?_⟩
  obtain ⟨call, answer⟩ := answered
  cases call with
  | verify _ e' _ _ | adaptive_execute _ e' _ _ =>
    cases Option.some.inj he
    cases answer with
    | ok => exact hvouches.1
    | error => exact hvouches.elim
  | _ => nomatch he

/-- A session with the ladder. -/
def laddered : Session where
  zigzagzig := true

/-- The payment is not verified, and the intents succeed. -/
def detecting : Env where
  choose _ call := match call with
    | .verify _ _ _ _ => .error (verification_error "click did not reach expected URL")
    | .adaptive_execute _ e _ _ =>
      .ok { evidence := if is_intent e then [.intent_execution] else [] }
    | call => calm ⟨5, 4, none⟩ call
  fired _ := false

/-- The process of the payment stops when the detection of a challenge has completed. -/
def detected : State where
  world := submitted_world plain_service (some laddered) pay false false detecting 136
    pay_state.world
  submitted := [pay]

theorem reached_detected : Reached plain_service detected :=
  .next reached_pay_state trivial (a := .submit (some laddered) pay false false detecting 136) rfl

/-- The answer verifies the click, or shows that it has led to its URL. -/
def shows_payment : Answered → Bool
  | ⟨.verify _ _ _ _, .ok _⟩ => true
  | ⟨.inspect _ _ _, .ok evidence⟩ => postcondition_matched pay.command evidence
  | _ => false

/-- The journal does not take the records that follow the dispatch, but for marks of recovery. -/
def forgetful : Env where
  choose _ call := match call with
    | .append _ content =>
      { write := if content.phase = .verifying ∨ content.outcome.isSome then
          .refused (.serialization "record is not stored") else .stored }
    | call => calm ⟨5, 4, none⟩ call
  fired _ := false

/-- The process of the payment stops when the ladder has marked it as recovering. -/
def marked : State where
  world := submitted_world plain_service (some laddered) pay false false forgetful 72
    pay_state.world
  submitted := [pay]

theorem reached_marked : Reached plain_service marked :=
  .next reached_pay_state trivial (a := .submit (some laddered) pay false false forgetful 72) rfl

/-- The call gives a command with this identifier to a worker. -/
def dispatches (id : CommandId) : Call → Bool
  | .adaptive_execute _ e _ _ => e.command_id = id
  | _ => false

theorem dispatched_of_any
    (h : calls.any (fun answered => dispatches id answered.1)) : Dispatched id calls := by
  obtain ⟨⟨call, answer⟩, hmem, hcall⟩ := any_eq_true.mp h
  cases call with
  | adaptive_execute worker e page gate =>
    exact ⟨_, hmem, worker, e, page, gate, rfl, of_decide_eq_true hcall⟩
  | _ => nomatch hcall

/-- The process of the payment stops after so many calls, with nothing in its way. -/
def paid (fuel : ℕ) : State where
  world := submitted_world plain_service (some laddered) pay false false calm_env fuel pay_state.world
  submitted := [pay]

theorem reached_paid (fuel : ℕ) : Reached plain_service (paid fuel) :=
  .next reached_pay_state trivial (a := .submit (some laddered) pay false false calm_env fuel) rfl

end BobbyBrowser.Submission
