/-
The code in the outcome of `enterCode`.

Everything a run reports passes through the mask, with two exceptions: what
`locate` reports of a control it cannot find, and the keys of the maps in the
evidence, which are the page's attribute names and the keys of objects a browser
answers with. And the mask itself writes `[redacted]`, which may hold the code.
A run is quiet when none of this carries the code, and the outcome of a quiet
run does not. The invariant of a run is that the keys in the evidence gathered
so far are free of the code; each step keeps it, and both ways out mask the rest.

What `locate` brings in is read off the browser's answer, and its report carries
the code exactly when that does. The condition on the code itself is needed for
every page at once: a code that some mask leaves standing is told by some page, but
not by one that never shows it, so no equivalence is stated for a single run.
-/
import BobbyBrowser.EnterCode

set_option autoImplicit false

namespace BobbyBrowser.EnterCode

open Documents Interrupt Outcomes Resolver Targets Texts
open Triple (get_bind keep)
open List (all_append all_cons all_nil append_nil all_eq_true)
open Value (keys_items keys keys_fields keys_string_map strings strings_items strings_fields)

/-! ## Texts without the code -/

/-- The code does not occur in a text. -/
def free (code text : Text) : Bool := !contains text code

/-- The code occurs in no text of a document. -/
def clean (code : Text) (value : Value) : Bool := value.texts.all (free code)

/-- The code occurs in no key of a document. -/
def clean_keys (code : Text) (value : Value) : Bool := value.keys.all (free code)

/-- The code does not appear in an outcome. -/
def silent (code : Text) : IntentOutcome → Bool
  | .completed evidence => evidence.all (clean code)
  | .failed error evidence => free code error.message.toList && evidence.all (clean code)

/-- Masking a text for the code always removes it. -/
def Hidden (code : Text) : Prop := ∀ text, free code (mask text code) = true

/-- The strings of the report of a control that is not located: the run's summary, the word for what
went wrong, the fixed words of the record, and of every candidate that is listed its role, its name
and the reasons for its score. -/
def reported (summary : Text) (candidates : List CandidateEvidence) (verification : String) :
    List Text :=
  ["intentExecution".toList, "enterCode".toList, "enter the one-time code".toList,
      "deterministic".toList, summary]
    ++ candidates.flatMap (fun candidate =>
      candidate.role.toList ++ candidate.name.toList ++ candidate.reasons)
    ++ [verification.toList]

/-- What an answer of the browser brings into the outcome unmasked when a control is looked for. A
gather that fails brings its message. Candidates bring the attribute names of the one they resolve
to, the message of the resolver's error, or the roles, names and reasons of those that are equally
good; and every report of a control that is not located has words of its own. -/
def unmasked (regex_new : RegexNew) (summary : Text) (target : TargetSpec) :
    Except CommandError (List Candidate) → List Text
  | .error error => error.message.toList :: reported summary [] "gatherFailed"
  | .ok census =>
    match resolve_candidates regex_new target census {} with
    | .error error => resolution_error_message error :: reported summary [] "resolveFailed"
    | .ok (.resolved candidate _ _) => (identity_attributes candidate).entries.map Prod.fst
    | .ok .not_found =>
      (stuck_message "targetNotFound").toList :: reported summary [] "targetNotFound"
    | .ok (.ambiguous candidates) =>
      (stuck_message "targetAmbiguous").toList :: reported summary candidates "targetAmbiguous"

/-- What the outcome takes over unmasked does not carry the code: what an answer brings in when a
control is looked for, and the keys in the browser's own evidence. -/
def quiet (request : Request) : Event → Bool
  | .located summary target answer =>
    (unmasked request.regex_new summary target answer).all (free request.typed)
  | .shown step => clean_keys request.typed step.evidence
  | .answered evidence => evidence.all (clean_keys request.typed)

/-- Reading a document back invents no text. -/
def Faithful (reread : Value → Option Value) : Prop :=
  ∀ value item, reread value = some item → item.texts ⊆ value.texts

/-- What a request masks is free of the code, up to its keys. -/
structure Masks (request : Request) : Prop where
  hidden : Hidden request.typed
  reread : Faithful request.reread

variable {code : Text}

theorem hidden_of_apart (hlength : 4 ≤ code.length)
    (h : Replace.Apart code REDACTED) : Hidden code := by
  intro text
  unfold free contains mask
  rw [if_neg (by omega), decide_eq_false (h.not_infix_replace text), Bool.not_false]

/-! ## Both ways out mask -/

section Masked

variable {request : Request}

theorem clean_walk {value : Value} (hhidden : Hidden code) (hkeys : clean_keys code value) :
    clean code (value.walk fun text => mask text code) = true := by
  unfold clean clean_keys at *
  rw [Value.texts_walk, all_append, hkeys, Bool.and_true, List.all_map]
  exact all_eq_true.mpr fun text _ => hhidden text

variable {evidence : List Evidence}

/-- **Masked evidence is clean**, up to its keys. -/
theorem clean_mask_evidence {reread : Value → Option Value}
    (hhidden : Hidden code) (hreread : Faithful reread) (hkeys : evidence.all (clean_keys code)) :
    (mask_evidence reread evidence code).all (clean code) = true := by
  rw [all_eq_true] at *
  intro item hitem
  obtain ⟨value, hvalue, hread⟩ := List.mem_filterMap.mp hitem
  have hclean := clean_walk hhidden (hkeys value hvalue)
  unfold clean at hclean ⊢
  rw [all_eq_true] at hclean ⊢
  exact fun text htext => hclean text (hreread _ _ hread htext)

theorem keys_intent_evidence (summary : Text) (elapsed : Option ℤ) (verification : Text) :
    (intent_evidence summary [] elapsed verification).keys = [] := by
  cases elapsed <;> rfl

theorem clean_keys_of_keys_eq_nil {value : Value} (h : value.keys = []) :
    clean_keys code value = true := by
  unfold clean_keys
  rw [h]
  rfl

/-- The masked way out does not carry the code, up to the keys of the evidence. -/
theorem silent_failed {error : CommandError} {verification : String} {run : Run}
    (hmask : Masks request) (hkeys : (run.resolutions ++ evidence).all (clean_keys request.typed)) :
    silent request.typed (failed request error evidence verification run) = true := by
  unfold failed silent
  simp only [String.toList_ofList]
  rw [hmask.hidden, Bool.true_and]
  refine clean_mask_evidence hmask.hidden hmask.reread ?_
  rw [all_append, hkeys, Bool.true_and, all_cons, all_nil, Bool.and_true]
  exact clean_keys_of_keys_eq_nil (keys_intent_evidence _ _ _)

end Masked

/-! ## The keys of what a run builds -/

theorem keys_candidate_evidence (evidence : CandidateEvidence) :
    (candidate_evidence evidence).keys = [] := by
  have hreasons : keys_items (evidence.reasons.map Value.string) = [] := by
    refine Value.keys_items_eq_nil ?_
    intro item hitem
    obtain ⟨reason, -, rfl⟩ := List.mem_map.mp hitem
    rfl
  simp [candidate_evidence, record, keys, keys_fields, hreasons]

theorem strings_candidate_evidence (evidence : CandidateEvidence) :
    (candidate_evidence evidence).strings
      = evidence.role.toList ++ evidence.name.toList ++ evidence.reasons := by
  have hreasons : strings_items (evidence.reasons.map Value.string) = evidence.reasons := by
    rw [Value.strings_items_eq_flatMap, List.flatMap_map]
    exact List.flatMap_singleton' _
  simp [candidate_evidence, record, strings, strings_fields, hreasons]

/-- The texts of a report are the ones that are listed. -/
theorem texts_intent_evidence (summary : Text) (candidates : List CandidateEvidence)
    (verification : String) :
    (intent_evidence summary candidates none verification.toList).texts
      = reported summary candidates verification := by
  have hstrings : strings_items (candidates.map candidate_evidence)
      = candidates.flatMap fun candidate =>
          candidate.role.toList ++ candidate.name.toList ++ candidate.reasons := by
    rw [Value.strings_items_eq_flatMap, List.flatMap_map]
    simp only [strings_candidate_evidence]
  have hkeys : keys_items (candidates.map candidate_evidence) = [] := by
    refine Value.keys_items_eq_nil ?_
    intro item hitem
    obtain ⟨evidence, -, rfl⟩ := List.mem_map.mp hitem
    exact keys_candidate_evidence evidence
  simp [intent_evidence, reported, record, string, Value.texts, strings, strings_fields,
    strings_items, keys, keys_fields, keys_items, hstrings, hkeys]

theorem silent_report (error : CommandError) (summary : Text) (candidates : List CandidateEvidence)
    (verification : String) :
    silent code (.failed error [intent_evidence summary candidates none verification.toList])
      = (error.message.toList :: reported summary candidates verification).all (free code) := by
  rw [silent, all_cons, all_cons, all_nil, Bool.and_true, clean, texts_intent_evidence]

/-- **The outcome of a control that is not located** carries the code exactly when something does that
the browser's answer brings in. -/
theorem silent_of_locate {regex_new : RegexNew} {summary : Text} {target : TargetSpec}
    {answer : Except CommandError (List Candidate)} {outcome : IntentOutcome}
    (h : locate regex_new summary target answer = .error outcome) :
    silent code outcome = (unmasked regex_new summary target answer).all (free code) := by
  cases answer with
  | error error =>
    obtain rfl := Except.error.inj h
    exact silent_report _ _ _ _
  | ok census =>
    rw [locate] at h
    rw [unmasked]
    generalize resolve_candidates regex_new target census {} = decision at h ⊢
    rcases decision with error | ⟨_, _, _⟩ | candidates | _
    · obtain rfl := Except.error.inj h
      rw [silent_report, page_error, String.toList_ofList]
    · cases h
    · obtain rfl := Except.error.inj h
      exact silent_report _ _ _ _
    · obtain rfl := Except.error.inj h
      exact silent_report _ _ _ _

/-- The names of a located control's attributes are what the browser's answer brings in. -/
theorem names_of_locate {regex_new : RegexNew} {summary : Text} {target : TargetSpec}
    {answer : Except CommandError (List Candidate)} {candidate : Candidate}
    {found : CandidateEvidence} {authorized : Bool}
    (h : locate regex_new summary target answer = .ok (candidate, found, authorized)) :
    (identity_attributes candidate).entries.map Prod.fst
      = unmasked regex_new summary target answer := by
  cases answer with
  | error error => cases h
  | ok census =>
    rw [locate] at h
    rw [unmasked]
    generalize resolve_candidates regex_new target census {} = decision at h ⊢
    rcases decision with error | ⟨_, _, _⟩ | candidates | _
    · cases h
    · cases h
      rfl
    · cases h
    · cases h

theorem target_values_eq_map (targets : List TargetSpec) :
    target_values targets = targets.map target_value := by
  induction targets with
  | nil => rfl
  | cons target targets ih => rw [target_values, ih, List.map_cons]

theorem keys_target_value_segment (segment : SemanticTargetSegment) :
    (target_value (segment_spec segment)).keys = [] := by
  simp [segment_spec, target_value, target_values, text_match, record, keys,
    keys_fields, keys_items, keys_string_map]

/-- The target of a form control has no keys that a page chooses: its attributes are not handed on
to the resolver. -/
theorem keys_target_value (target : FormControlTarget) :
    (target_value (target_spec target)).keys = [] := by
  have hpath : ∀ path : List SemanticTargetSegment,
      keys_items (target_values (path.map segment_spec)) = [] := by
    intro path
    rw [target_values_eq_map, List.map_map]
    refine Value.keys_items_eq_nil ?_
    intro item hitem
    obtain ⟨segment, -, rfl⟩ := List.mem_map.mp hitem
    exact keys_target_value_segment segment
  simp [target_spec, target_value, text_match, record, keys, keys_fields, keys_string_map, hpath]

theorem keys_resolution (page_id : Text) (target : FormControlTarget) (candidate : Candidate)
    (evidence : CandidateEvidence) (authorized : Bool) :
    (resolution page_id (target_spec target) candidate evidence authorized).keys
      = (identity_attributes candidate).entries.map Prod.fst := by
  simp [resolution, fingerprint, record, string, keys, keys_fields, keys_items,
    keys_string_map, keys_target_value, keys_candidate_evidence]

/-! ## Every step keeps the keys free of the code -/

/-- As long as the trace is quiet, the keys of the evidence so far, and of some more, are free of
the code. -/
def Sound (request : Request) (evidence : List Evidence) (run : Run) : Prop :=
  (∀ event ∈ run.trace, quiet request event = true) →
    (run.resolutions ++ evidence).all (clean_keys request.typed) = true

/-- The outcome of a run that leaves early does not carry the code, if its trace is quiet. -/
def Untold (request : Request) (left : IntentOutcome × List Event) : Prop :=
  (∀ event ∈ left.2, quiet request event = true) → silent request.typed left.1 = true

/-- The program keeps the keys free of the code, or leaves with an outcome that does not carry it. -/
abbrev Keeps (request : Request) (evidence : List Evidence) {α : Type} (program : Program α) : Prop :=
  Triple (Sound request evidence) program (fun _ => Sound request evidence) (Untold request)

section Steps

variable {request : Request} {evidence : List Evidence} {run : Run}

theorem Sound.append {more : List Evidence} (h : Sound request evidence run)
    (hmore : (∀ event ∈ run.trace, quiet request event = true) →
      more.all (clean_keys request.typed) = true) : Sound request (evidence ++ more) run := by
  intro hquiet
  rw [← List.append_assoc, all_append, h hquiet, hmore hquiet]
  rfl

theorem Sound.nil (h : Sound request evidence run) : Sound request [] run := by
  intro hquiet
  have hall := h hquiet
  rw [all_append, Bool.and_eq_true] at hall
  rw [append_nil]
  exact hall.1

variable {α : Type}

theorem call_sound (answer : ℕ → α) : Keeps request evidence (call answer) :=
  fun _ h => h

theorem note_sound (event : Event) :
    Triple (Sound request evidence) (note event)
      (fun _ run => Sound request evidence run
        ∧ ((∀ other ∈ run.trace, quiet request other = true) → quiet request event = true))
      (Untold request) := by
  intro run h
  refine ⟨fun hquiet => ?_, fun hquiet => ?_⟩
  · exact h fun other hother => hquiet other (List.mem_append_left _ hother)
  · exact hquiet event (List.mem_append_right _ (List.mem_singleton.mpr rfl))

variable {Q : α → Run → Prop}

theorem leave_failed_sound (hmask : Masks request) (error : CommandError) (verification : String) :
    Triple (Sound request evidence) (leave (failed request error evidence verification)) Q
      (Untold request) := by
  intro run h hquiet
  exact silent_failed hmask (h hquiet)

theorem leave_failed_nil_sound (hmask : Masks request) (error : CommandError)
    (verification : String) :
    Triple (Sound request evidence) (leave (failed request error [] verification)) Q
      (Untold request) :=
  (leave_failed_sound hmask error verification).pre fun _ h => h.nil

/-- Locating a control adds its attribute names to the keys, or ends the run with the report of
`locate`; both are in the trace. -/
theorem run_locate_sound (target : FormControlTarget) :
    Keeps request evidence (run_locate request target) := by
  refine (call_sound _).bind fun answer => ?_
  refine get_bind fun start hstart => ?_
  refine ((note_sound _).pre fun run hrun => hrun ▸ hstart).bind fun _ => ?_
  intro run hrun
  obtain ⟨hsound, htold⟩ := hrun
  rcases hlocate : locate request.regex_new start.summary (target_spec target) answer with
    outcome | ⟨candidate, found, authorized⟩
  · intro hquiet
    rw [silent_of_locate hlocate]
    exact htold hquiet
  intro hquiet
  have hkeys : clean_keys request.typed
      (resolution request.page_id (target_spec target) candidate found authorized) = true := by
    unfold clean_keys
    rw [keys_resolution, names_of_locate hlocate]
    exact htold hquiet
  have hall := hsound hquiet
  rw [all_append, Bool.and_eq_true] at hall
  rw [all_append, all_append, hall.1, hall.2, all_cons, hkeys]
  rfl

theorem reads_back_sound (field : CodeField) (expected : Text) :
    Keeps request evidence (reads_back request field expected) := by
  refine (call_sound _).bind fun answer => ?_
  rcases answer with error | _ | snapshot
  · exact keep
  · exact keep
  · exact keep

section Masking

variable (hmask : Masks request)

include hmask

/-- Filling a field locates it, types, and reads it back; every failure in between is masked. -/
theorem fill_sound (field : CodeField) (chunk : Text) (split : Bool) :
    Keeps request evidence (fill request field chunk split) := by
  unfold fill
  rcases field.target with _ | target
  · exact leave_failed_nil_sound hmask _ _
  refine (run_locate_sound target).bind fun _ => ?_
  refine (call_sound _).bind fun typed => ?_
  rcases typed with error | verified
  · exact leave_failed_nil_sound hmask _ _
  by_cases hdone : (split || verified) = true
  · simp only [hdone, if_true]
    exact keep
  simp only [hdone]
  refine (reads_back_sound field chunk).bind fun back => ?_
  cases back
  · exact leave_failed_nil_sound hmask _ _
  · exact keep

theorem fill_all_sound (split : Bool) (fields : List (CodeField × Text)) :
    Keeps request evidence (fill_all request split fields) := by
  induction fields with
  | nil => exact keep
  | cons field fields ih => exact (fill_sound hmask _ _ _).bind fun _ => ih

omit hmask in
/-- A look at the fields ends well or goes on, and adds nothing to the evidence. -/
theorem unless_filled_sound (fields : List (CodeField × Text))
    {otherwise : List (CodeField × Text) → Program Unit}
    (h : ∀ wrong, Keeps request evidence (otherwise wrong)) :
    Keeps request evidence (unless_filled request fields otherwise) := by
  refine (call_sound _).bind fun answer => ?_
  rcases answer with error | _ | snapshot
  · exact keep
  · exact keep
  by_cases hdone : (wrong_fields snapshot fields).isEmpty = true
  · simp only [hdone, if_true]
    exact keep
  · simp only [hdone]
    exact h _

theorem verify_filled_sound (fields : List (CodeField × Text)) (split : Bool) (passes : ℕ) :
    Keeps request evidence (verify_filled request fields split passes) := by
  induction passes with
  | zero =>
    exact unless_filled_sound fields fun _ => leave_failed_nil_sound hmask _ _
  | succ passes ih =>
    exact unless_filled_sound fields fun _ =>
      (fill_all_sound hmask split _).bind fun _ => ih

theorem verify_typed_through_sound (fields : List (CodeField × Text)) (passes : ℕ) :
    Keeps request evidence (verify_typed_through request fields passes) := by
  induction passes with
  | zero =>
    exact unless_filled_sound fields fun _ => leave_failed_nil_sound hmask _ _
  | succ passes ih => exact unless_filled_sound fields fun _ => ih

omit hmask in
theorem carried_sound (step : CodeStep) :
    Triple (Sound request evidence) (carried step)
      (fun shown => Sound request (evidence ++ [shown])) (Untold request) := by
  refine (note_sound _).bind fun _ => Triple.pure _ ?_
  rintro run ⟨hsound, htold⟩
  refine hsound.append fun hquiet => ?_
  rw [all_cons, all_nil, Bool.and_true]
  exact htold hquiet

omit hmask in
theorem answered_sound (more : List Evidence) :
    Triple (Sound request evidence) (note (.answered more))
      (fun _ => Sound request (evidence ++ more)) (Untold request) :=
  (note_sound _).mono (fun _ h => h) fun _ _ h => h.1.append h.2

omit hmask in
theorem Sound.append_nil (h : Sound request evidence run) : Sound request (evidence ++ []) run := by
  rwa [List.append_nil]

theorem pressed_sound (acted : Except CommandError (List Evidence)) :
    Triple (Sound request evidence) (pressed request acted)
      (fun more => Sound request (evidence ++ more)) (Untold request) := by
  unfold pressed
  rcases acted with error | more
  · simp only
    split
    · exact Triple.pure _ fun _ h => h.append_nil
    · exact leave_failed_nil_sound hmask _ _
  · exact (answered_sound more).bind fun _ => Triple.pure _ fun _ h => h

/-- Pressing submit adds what the browser answers to the evidence; its keys are in the trace. -/
theorem press_submit_sound (step : CodeStep) :
    Triple (Sound request evidence) (press_submit request step)
      (fun more => Sound request (evidence ++ more)) (Untold request) := by
  unfold press_submit
  rcases step.submit with _ | submit
  · rcases hlast : step.fields.reverse.findSome? CodeField.target with _ | last
    · simp only
      exact Triple.pure _ fun _ h => h.append_nil
    · simp only
      refine (run_locate_sound last).bind fun _ => ?_
      exact (call_sound _).bind fun _ => pressed_sound hmask _
  · refine (run_locate_sound submit).bind fun _ => ?_
    exact (call_sound _).bind fun _ => pressed_sound hmask _

theorem rejected_sound (waited : Option CommandError) :
    Triple (Sound request evidence) (rejected request waited evidence) Q (Untold request) := by
  refine (call_sound _).bind fun answer => ?_
  rcases answer with error | _ | step
  · exact leave_failed_sound hmask _ _
  · exact leave_failed_sound hmask _ _
  · exact (carried_sound step).bind fun _ => leave_failed_sound hmask _ _

theorem await_exit_sound (polls : ℕ) :
    Keeps request evidence (await_exit request evidence polls) := by
  induction polls with
  | zero =>
    refine (call_sound _).bind fun answer => ?_
    rcases answer with error | _ | step
    · exact leave_failed_sound hmask _ _
    · exact keep
    · exact rejected_sound hmask none
  | succ polls ih =>
    refine (call_sound _).bind fun answer => ?_
    rcases answer with error | _ | step
    · exact ih
    · exact keep
    · exact ih

/-- The submission, with the wait for the next state of the page. -/
theorem submit_code_sound (step : CodeStep) :
    Triple (Sound request evidence) (submit_code request step evidence)
      (fun result => Sound request result.1) (Untold request) := by
  refine (press_submit_sound hmask step).bind fun acted => ?_
  cases hstate : request.expects_state
  · simp only [Bool.false_eq_true, if_false]
    exact (await_exit_sound hmask _).bind fun _ => Triple.pure _ fun _ h => h
  simp only [if_true]
  refine (call_sound _).bind fun answer => ?_
  rcases answer with error | waited
  · exact rejected_sound hmask _
  · exact (answered_sound waited).bind fun _ => Triple.pure _ fun _ h => h

theorem length_mismatch_sound (step : CodeStep) (message : String) :
    Triple (Sound request []) (length_mismatch request step message) Q (Untold request) :=
  (carried_sound step).bind fun _ => leave_failed_sound hmask _ _

theorem check_length_sound (step : CodeStep) : Keeps request [] (check_length request step) := by
  unfold check_length
  simp only
  split
  · exact length_mismatch_sound hmask step _
  split
  · split
    · exact length_mismatch_sound hmask step _
    · exact keep
  · exact keep

theorem fill_step_sound (step : CodeStep) : Keeps request evidence (fill_step request step) := by
  unfold fill_step
  simp only
  split
  · exact (fill_sound hmask _ _ _).bind fun _ =>
      verify_typed_through_sound hmask _ _
  · exact (fill_all_sound hmask _ _).bind fun _ =>
      verify_filled_sound hmask _ _ _

theorem first_step_sound : Keeps request [] (first_step request) := by
  refine (call_sound _).bind fun answer => ?_
  rcases answer with error | _ | step
  · exact leave_failed_sound hmask _ _
  · exact leave_failed_sound hmask _ _
  · exact keep

omit hmask in
theorem Sound.append_report (h : Sound request evidence run) (summary : Text)
    (elapsed : Option ℤ) (verification : Text) :
    Sound request (evidence ++ [intent_evidence summary [] elapsed verification]) run := by
  refine h.append fun _ => ?_
  rw [all_cons, all_nil, Bool.and_true]
  exact clean_keys_of_keys_eq_nil (keys_intent_evidence _ _ _)

/-- The end of a run, with or without a submission. -/
theorem finish_sound (step : CodeStep) :
    Triple (Sound request evidence) (finish request step evidence)
      (fun evidence => Sound request evidence) (Untold request) := by
  unfold finish
  cases hsubmit : request.submit
  · simp only [Bool.false_eq_true, if_false]
    refine get_bind fun start hstart => Triple.pure _ ?_
    rintro run rfl
    exact hstart.append_report _ _ _
  · simp only [if_true]
    refine (submit_code_sound hmask step).bind fun result => ?_
    refine get_bind fun start hstart => Triple.pure _ ?_
    rintro run rfl
    exact hstart.append_report _ _ _

/-- **The whole run** keeps the keys of its evidence free of the code, or leaves with an outcome
that does not carry it. -/
theorem body_sound :
    Triple (Sound request []) (body request) (fun evidence => Sound request evidence)
      (Untold request) := by
  refine (first_step_sound hmask).bind fun step => ?_
  refine Triple.bind (Triple.modify (R := fun _ => Sound request []) _ fun _ h => h) fun _ => ?_
  refine (check_length_sound hmask step).bind fun _ => ?_
  refine (fill_step_sound hmask step).bind fun _ => ?_
  -- From here on the evidence is a copy of what has been resolved.
  have hcopy : Triple (Sound request [])
      (modify fun run => { run with resolutions := run.resolutions ++ [entered request step] }
        : Program PUnit)
      (fun _ run => Sound request run.resolutions run) (Untold request) := by
    refine Triple.modify _ fun run h hquiet => ?_
    have hall : (run.resolutions ++ []).all (clean_keys request.typed) = true := h hquiet
    rw [append_nil] at hall
    have hentered : clean_keys request.typed (entered request step) = true := rfl
    simp only [all_append, all_cons, all_nil, hall, hentered, Bool.and_self]
  refine hcopy.bind fun _ => ?_
  refine get_bind fun start hstart => ?_
  exact (finish_sound hmask step).pre fun run hrun => hrun ▸ hstart

end Masking

end Steps

/-! ## The outcome of a quiet run -/

/-- **A code that the mask does not remove is told on some page**: on one that fails to be read with
a message whose mask has the code. The condition on the code is therefore needed for all pages, and
only for all: a page that shows no such text does not tell the code (`unshown_code_hidden`), so there
is no equivalence for a single run. -/
theorem told_of_not_hidden (request : Request) (h : ¬Hidden request.typed) :
    ∃ browser, silent request.typed (execute_enter_code { request with browser := browser }).1
      = false := by
  obtain ⟨text, htext⟩ := not_forall.mp h
  refine ⟨{ request.browser with
    code_step := fun _ => .error ⟨.browser_command_failed, String.ofList text, .browser, false⟩ }, ?_⟩
  have hmask : free request.typed (String.ofList (mask (String.ofList text).toList
      request.typed)).toList = false := by
    rw [String.toList_ofList, String.toList_ofList]
    exact Bool.eq_false_iff.mpr htext
  exact Bool.and_eq_false_imp.mpr fun hfree => absurd (hmask.symm.trans hfree) Bool.false_ne_true

/-! ## Five pages -/

/-- The field a page asks for its code in. -/
def code_field : FormControlTarget where
  attributes := {}
  role := "textbox".toList
  accessible_name := "Verification code".toList
  ordinal := none
  frame_path := []
  shadow_path := []

/-- The field as it is gathered, with one more attribute. -/
def gathered (attribute_name : String) : Candidate where
  id := "bobby-1-1".toList
  css := some "#code".toList
  role := some "textbox".toList
  name := some "Verification code".toList
  attributes := .single attribute_name.toList "1".toList

/-- A request to fill in a code, without submitting it, on a page with one code field. -/
def filling (code : String) (census : Except CommandError (List Candidate))
    (typed : Except CommandError Bool) : Request where
  page_id := "0197".toList
  code := code.toList
  submit := false
  expects_state := false
  regex_new := fun _ => .error []
  reread := some
  browser :=
    { code_step := fun _ => .ok (some { first := ⟨"control-1".toList, some code_field, none⟩ })
      form_snapshot := fun _ => .ok none
      collect_candidates := fun _ _ => census
      type_text := fun _ => typed
      click := fun _ => .ok []
      wait_for := fun _ => .ok []
      polls := 0 }

theorem faithful_some : Faithful some := by
  rintro value item ⟨⟩
  exact List.Subset.refl _

/-- The code `redacted` is a part of what the mask writes, but a page that never shows it does not
tell it. -/
theorem unshown_code_hidden :
    ¬Hidden "redacted".toList
      ∧ silent "redacted".toList
          (execute_enter_code (filling "redacted" (.ok [gathered "data-step"]) (.ok true))).1
        = true := by
  refine ⟨fun h => absurd (h "redacted".toList) (by decide +kernel), ?_⟩
  decide +kernel

end BobbyBrowser.EnterCode
