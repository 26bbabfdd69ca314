/-
The settings of a session's browser.

Workers are pooled, so a worker may come with the settings of another session. An
execution writes both settings to the worker it has leased before it uses it, and
to the one it gets when the browser has to be launched again. There it does not
look whether the writes succeed.

Under the recovery ladder the command itself, the changed interaction and the
navigation of a restart run with the gate that grants nothing, and the steps that
observe or restore the page write no settings at all.
-/
import BobbyBrowser.ExecutorRun
import BobbyBrowser.Submission

set_option autoImplicit false

namespace BobbyBrowser.PageRuntime

open Commands Calls List Option

/-! ## What was written, and when a worker is used -/

/-- The fingerprint setting that a call has written to the worker. -/
def fingerprint_written (worker : WorkerId) : Answered → Option Bool
  | ⟨.set_fingerprint_enabled w enabled, .ok ()⟩ => if w = worker then some enabled else none
  | _ => none

/-- The humanization setting that a call has written to the worker. -/
def humanization_written (worker : WorkerId) : Answered → Option Bool
  | ⟨.set_humanization_enabled w enabled, .ok ()⟩ => if w = worker then some enabled else none
  | _ => none

/-- The fingerprint setting last written to the worker. -/
def last_fingerprint (calls : List Answered) (worker : WorkerId) : Option Bool :=
  calls.reverse.findSome? (fingerprint_written worker)

/-- The humanization setting last written to the worker. -/
def last_humanization (calls : List Answered) (worker : WorkerId) : Option Bool :=
  calls.reverse.findSome? (humanization_written worker)

/-- The worker that a call makes run the command, or a step for it. -/
def Call.used_worker : Call → Option WorkerId
  | .adaptive_execute worker _ _ _ | .verify worker _ _ _ | .navigate worker _ _
  | .inspect worker _ _ | .open_page worker _ => some worker
  | _ => none

/-- Both settings of the worker are those of the gate. -/
def Set (gate : SessionGate) (calls : List Answered) (worker : WorkerId) : Prop :=
  last_fingerprint calls worker = some gate.fingerprint ∧
    last_humanization calls worker = some gate.humanize

/-- After these calls the call is made under the gate: its worker has the settings, and what it
runs has the vision grant. -/
structure Granted (gate : SessionGate) (calls : List Answered) (call : Call) : Prop where
  settings : ∀ worker, call.used_worker = some worker → Set gate calls worker
  vision : ∀ worker envelope page own, call = .adaptive_execute worker envelope page own →
    own.vision = gate.vision ∧ own.vision_node = gate.vision_node

/-- Every call of a run is made under the gate. -/
def Gated (gate : SessionGate) (calls : List Answered) : Prop :=
  ∀ before answered after, calls = before ++ answered :: after → Granted gate before answered.1

/-- A setting could not be written. -/
def write_failed : Answered → Bool
  | ⟨.set_fingerprint_enabled _ _, .error _⟩ => true
  | ⟨.set_humanization_enabled _ _, .error _⟩ => true
  | _ => false

/-- Every setting that was to be written was written. -/
def Written (calls : List Answered) : Prop := ∀ answered ∈ calls, write_failed answered = false

variable {gate : SessionGate} {calls : List Answered} {answered : Answered} {worker : WorkerId}

theorem gated_nil : Gated gate [] := by
  intro before answered after h
  exact absurd h.symm (append_ne_nil_of_right_ne_nil _ (cons_ne_nil _ _))

theorem Gated.append (h : Gated gate calls) (hnext : Granted gate calls answered.1) :
    Gated gate (calls ++ [answered]) := by
  intro before a after heq
  rcases eq_nil_or_concat after with hnil | ⟨rest, last, hlast⟩
  · rw [hnil] at heq
    obtain ⟨hcalls, ha⟩ := append_inj' heq rfl
    rw [← hcalls, ← cons.inj ha |>.1]
    exact hnext
  · rw [hlast, concat_eq_append, ← cons_append, ← append_assoc] at heq
    obtain ⟨hcalls, -⟩ := append_inj' heq rfl
    exact h before a rest hcalls

theorem written_append (h : Written (calls ++ [answered])) :
    Written calls ∧ write_failed answered = false :=
  ⟨fun a ha => h a (mem_append_left _ ha), h answered (mem_append_right _ mem_cons_self)⟩

theorem last_fingerprint_append :
    last_fingerprint (calls ++ [answered]) worker
      = (fingerprint_written worker answered).or (last_fingerprint calls worker) := by
  rw [last_fingerprint, reverse_append, reverse_singleton, singleton_append, findSome?_cons]
  cases fingerprint_written worker answered <;> rfl

theorem last_humanization_append :
    last_humanization (calls ++ [answered]) worker
      = (humanization_written worker answered).or (last_humanization calls worker) := by
  rw [last_humanization, reverse_append, reverse_singleton, singleton_append, findSome?_cons]
  cases humanization_written worker answered <;> rfl

/-- The call writes no setting. -/
def Call.keeps_settings : Call → Bool
  | .set_fingerprint_enabled _ _ | .set_humanization_enabled _ _ => false
  | _ => true

section

variable {call : Call} (hkeep : call.keeps_settings) (answer : Res call)

include hkeep

theorem last_fingerprint_keep :
    last_fingerprint (calls ++ [⟨call, answer⟩]) worker = last_fingerprint calls worker := by
  have hnone : fingerprint_written worker ⟨call, answer⟩ = none := by
    cases call with
    | set_fingerprint_enabled w enabled => nomatch hkeep
    | _ => rfl
  rw [last_fingerprint_append, hnone, none_or]

theorem last_humanization_keep :
    last_humanization (calls ++ [⟨call, answer⟩]) worker = last_humanization calls worker := by
  have hnone : humanization_written worker ⟨call, answer⟩ = none := by
    cases call with
    | set_humanization_enabled w enabled => nomatch hkeep
    | _ => rfl
  rw [last_humanization_append, hnone, none_or]

end

/-! ## Executions -/

/-- What was written to the worker in hand. -/
def Provided (gate : SessionGate) (calls : List Answered) : Hand → Prop
  | .empty => True
  | .fingerprinted worker => last_fingerprint calls worker = some gate.fingerprint
  | .ready worker => Set gate calls worker

/-- Where an execution stands: every call so far was made under the gate. -/
def Under (gate : SessionGate) (hand : Hand) (w : World) : Prop :=
  Written w.calls → Gated gate w.calls ∧ Provided gate w.calls hand

variable {runtime : Runtime} {envelope : CommandEnvelope} {hand hand' : Hand} {call : Call}
  {w : World}

theorem Provided.append (h : Provided gate calls hand) (hkeep : call.keeps_settings)
    (answer : Res call) : Provided gate (calls ++ [⟨call, answer⟩]) hand := by
  cases hand with
  | empty => exact trivial
  | fingerprinted worker => exact (last_fingerprint_keep hkeep answer).trans h
  | ready worker =>
    exact ⟨(last_fingerprint_keep hkeep answer).trans h.1,
      (last_humanization_keep hkeep answer).trans h.2⟩

theorem granted_of_idle (hidle : call.used_worker = none) : Granted gate calls call := by
  refine ⟨?_, ?_⟩
  · intro worker hused
    rw [hidle] at hused
    nomatch hused
  · intro worker e page own heq
    subst heq
    nomatch hidle

section

variable (h : Under gate hand w)

include h

/-- A call stays under the gate if it is granted, and leaves the settings that the next stage
needs. -/
theorem Under.handle (choice : handler.Choice call)
    (hgranted : Provided gate w.calls hand → Granted gate w.calls call)
    (hnext : ∀ answer : Res call, write_failed ⟨call, answer⟩ = false →
      Provided gate w.calls hand → Provided gate (w.calls ++ [⟨call, answer⟩]) hand') :
    Under gate hand' (handler.handle call choice w).2 := by
  intro hw
  rw [handle_calls] at hw ⊢
  obtain ⟨hbefore, hok⟩ := written_append hw
  obtain ⟨hgated, hprovided⟩ := h hbefore
  exact ⟨hgated.append (hgranted hprovided), hnext _ hok hprovided⟩

/-- **A call that writes no setting.** -/
theorem Under.keep (hkeep : call.keeps_settings) (choice : handler.Choice call)
    (hgranted : Provided gate w.calls hand → Granted gate w.calls call) :
    Under gate hand (handler.handle call choice w).2 :=
  h.handle choice hgranted fun answer _ hprovided => hprovided.append hkeep answer

/-- A call that leaves the execution at its stage stays under the gate. -/
theorem Under.rest (hresting : Resting hand call)
    (choice : handler.Choice call) : Under gate hand (handler.handle call choice w).2 := by
  have hkeep : call.keeps_settings = true := by
    cases call with
    | set_fingerprint_enabled | set_humanization_enabled => exact hresting.elim
    | _ => rfl
  refine h.keep hkeep choice fun hprovided => ⟨?_, ?_⟩
  · -- what a call at rest uses is the worker in hand
    intro worker hused
    have hhand : hand = .ready worker := by
      cases call with
      | adaptive_execute | verify => exact hresting.elim
      | navigate | inspect | open_page => exact some.inj hused ▸ hresting
      | _ => nomatch hused
    rw [hhand] at hprovided
    exact hprovided
  · intro worker e page own heq
    subst heq
    exact hresting.elim

theorem Under.fingerprint
    (choice : handler.Choice (.set_fingerprint_enabled worker gate.fingerprint)) :
    Under gate (.fingerprinted worker)
      (handler.handle (.set_fingerprint_enabled worker gate.fingerprint) choice w).2 := by
  refine h.handle choice (fun _ => granted_of_idle rfl) ?_
  intro answer hok _
  cases answer with
  | error e => nomatch hok
  | ok u =>
    rw [Provided, last_fingerprint_append]
    simp [fingerprint_written]

end

/-- The last setting makes the worker ready. -/
theorem Under.humanize (h : Under gate (.fingerprinted worker) w)
    (choice : handler.Choice (.set_humanization_enabled worker gate.humanize)) :
    Under gate (.ready worker)
      (handler.handle (.set_humanization_enabled worker gate.humanize) choice w).2 := by
  refine h.handle choice (fun _ => granted_of_idle rfl) ?_
  intro answer hok hprovided
  cases answer with
  | error e => nomatch hok
  | ok u =>
    refine ⟨?_, ?_⟩
    · rw [last_fingerprint_append]
      exact hprovided
    · rw [last_humanization_append]
      simp [humanization_written]

/-- **Every move is made under the gate**, and a worker is ready once both settings were written
to it. -/
theorem Under.move :
    Moved handler (Moves envelope runtime gate) fun position => Under gate position.hand := by
  intro position call answer position' hmove choice w h _
  cases hmove with
  | rest stage answer hresting => exact h.rest hresting choice
  | record | prepare | mark => exact h.keep rfl choice fun _ => granted_of_idle rfl
  | fingerprint stage hand worker answer => exact h.fingerprint choice
  | humanize stage worker answer => exact h.humanize choice
  | run page answer hready =>
    refine h.keep rfl choice fun hset => ⟨?_, ?_⟩
    · intro other hused
      rw [← some.inj hused]
      exact hset
    · intro other e own_page own heq
      injection heq with _ _ _ hgate
      rw [← hgate]
      exact ⟨rfl, rfl⟩
  | verify typed_on answer hprimitive =>
    refine h.keep rfl choice fun hset => ⟨?_, ?_⟩
    · intro other hused
      rw [← some.inj hused]
      exact hset
    · intro other e own_page own heq
      cases heq
  | finish hand phase answer hconcludes =>
    exact h.keep rfl choice fun _ => granted_of_idle rfl

/-- **An execution without the ladder** uses only workers that have its settings, unless a setting
could not be written to a browser that was launched again. -/
theorem Under.execute (h : Under gate .empty w) :
    Holds handler (fun w => Written w.calls → Gated gate w.calls)
      (execute_with_session_gate runtime envelope gate)
      (fun _ w => Written w.calls → Gated gate w.calls) w := by
  have hholds := (follows_execute runtime envelope gate).holds
    (I := fun w : World => Written w.calls → Gated gate w.calls)
    (fun _ _ hunder hwritten => (hunder hwritten).1) Under.move h
  refine hholds.post ?_
  rintro _ _ ⟨position, -, hunder⟩ hwritten
  exact (hunder hwritten).1

end BobbyBrowser.PageRuntime

namespace BobbyBrowser.Submission

open Commands PageRuntime Calls

/-- **The settings of a session without the ladder.** In every run of a command that the ladder
does not take part in, wherever it ends or the process stops, each call that makes a worker run the
command or a step for it finds on that worker the settings of the session's own gate, and what it
runs has the gate's vision grant, provided that no setting was refused by a worker. -/
theorem submit_gated (service : Service) (session : Option Session) (envelope : CommandEnvelope)
    (vision_capability_ok one_shot_session_ok : Bool)
    (hladder : ladder_ready service session envelope = false) (env : Env) (fuel : ℕ) {w w' : World}
    (hcalls : w.calls = [])
    (hrun : w' = (stop handler env fuel 0
      (submit service session envelope vision_capability_ok one_shot_session_ok) w).2)
    (hwritten : Written w'.calls) :
    Gated (session_gate service session envelope.command vision_capability_ok one_shot_session_ok)
      w'.calls := by
  let gate := session_gate service session envelope.command vision_capability_ok
    one_shot_session_ok
  have hstart : Under gate .empty w := by
    intro _
    rw [hcalls]
    exact ⟨gated_nil, trivial⟩
  have hholds : Holds handler (fun w => Written w.calls → Gated gate w.calls)
      (submit service session envelope vision_capability_ok one_shot_session_ok)
      (fun _ w => Written w.calls → Gated gate w.calls) w := by
    unfold submit
    split
    · exact fun hwritten => (hstart hwritten).1
    · simp only [hladder, Bool.false_eq_true, if_false]
      exact hstart.execute
  have hunder : Written w'.calls → Gated gate w'.calls := by
    have hstop := hholds.stop env fuel 0
    rw [hrun]
    revert hstop
    rcases stop handler env fuel 0
      (submit service session envelope vision_capability_ok one_shot_session_ok) w
      with ⟨_ | outcome, t⟩
    · exact fun h => h
    · exact fun h => h
  exact hunder hwritten

/-! ### A session with the ladder -/

/-- A session that asks for the fingerprint setting. -/
def hardened (zigzagzig : Bool) : Option Session :=
  some { execution_policy := { fingerprint := true }, zigzagzig := zigzagzig }

/-- The calls of a run of the click. -/
def click_calls (zigzagzig : Bool) : List Answered :=
  (stop handler calm_env 100 0 (submit plain_service (hardened zigzagzig) click true false) {}).2.calls

/-- **With the ladder** the click runs on a worker to which the fingerprint setting was written as
off, although the session asks for it and no write fails. -/
theorem ladder_click_not_gated :
    Written (click_calls true) ∧
      ¬ Gated (session_gate plain_service (hardened true) click.command true false)
        (click_calls true) := by
  refine ⟨by unfold Written; decide +kernel, ?_⟩
  intro hgated
  have hlt : 16 < (click_calls true).length := by decide +kernel
  -- the seventeenth call is the one that runs the click
  have hsplit : click_calls true
      = (click_calls true).take 16 ++ (click_calls true)[16] :: (click_calls true).drop 17 := by
    rw [List.getElem_cons_drop, List.take_append_drop]
  have hused : ((click_calls true)[16]?).bind (fun answered => answered.1.used_worker) = some 0 := by
    decide +kernel
  rw [List.getElem?_eq_getElem hlt] at hused
  have hwritten : last_fingerprint ((click_calls true).take 16) 0 = some false := by
    decide +kernel
  have hset := ((hgated _ _ _ hsplit).settings 0 hused).1
  rw [hwritten] at hset
  nomatch hset

/-- Without the ladder the same click runs with the setting on. -/
theorem click_gated :
    last_fingerprint ((click_calls false).take 9) 0 = some true ∧
      Gated (session_gate plain_service (hardened false) click.command true false)
        (click_calls false) :=
  ⟨by decide +kernel,
    submit_gated plain_service (hardened false) click true false (by decide) calm_env 100 rfl rfl
      (by unfold Written; decide +kernel)⟩

end BobbyBrowser.Submission
