/-
What a climb of the ladder keeps.

Everything the ladder stores is an outcome, in a receipt or in a record of the
journal, and every store is justified by something: a call that was answered, or
the kind of the outcome. A `Reading` says what justifies what. One walk through
the programs of the ladder then shows that they store only what is justified, for
every reading that is sound for the command.

The executions of the command itself are not part of the walk. What they keep
depends on the reading.
-/
import BobbyBrowser.ExecutorRun
import BobbyBrowser.LadderProgram

set_option autoImplicit false

namespace BobbyBrowser.Ladder

open Outcomes Commands Skills PageRuntime List
open CommandLog Calls

variable {identity : SkillCommandIdentity} {choice : SaveChoice} {op : Call}

/-! ## Kinds of outcomes -/

/-- The kind of an outcome. -/
inductive Verdict
  | completed | restarted | uncertain | refused
  deriving DecidableEq

/-- The kind of an outcome: an uncertain one asks for reconciliation. -/
def verdict : Outcome → Verdict
  | .completed _ _ => .completed
  | .restarted _ _ _ _ _ => .restarted
  | .needs_reconciliation _ _ _ => .uncertain
  | .retryable_failure _ _ | .policy_denied _ _ | .resource_exhausted _ _ _
  | .failed _ _ _ => .refused

@[simp] theorem verdict_journal_safe (safe_url : String → String) (outcome : Outcome) :
    verdict (journal_safe_outcome safe_url outcome) = verdict outcome := by
  cases outcome <;> rfl

@[simp] theorem verdict_append_tactic_evidence (coding : Coding) (outcome : Outcome)
    (tactics : List SkillTacticEvidence) :
    verdict (append_tactic_evidence coding outcome tactics) = verdict outcome := by
  cases outcome <;> rfl

/-! ## Readings -/

/-- What justifies an outcome in a receipt, a record in the journal, what else is kept, and which
executions are counted. -/
structure Reading where
  Fit : SkillCommandIdentity → Verdict → List Answered → Prop
  Note : CommandId → Content → List Answered → Prop
  Extra : World → Prop
  counted : List Answered → List (Except AdaptiveFailure AdaptiveExecution) := fun _ => []

namespace Reading

variable (R : Reading)

/-- The receipts of a checkpoint are justified. -/
def Good (calls : List Answered) (checkpoint : WorkflowCheckpoint) : Prop :=
  ∀ receipt ∈ checkpoint.recovery_receipts,
    R.Fit receipt.identity (verdict receipt.command_outcome) calls

/-- Everything that is stored is justified. -/
structure Kept (w : World) : Prop where
  receipts : ∀ workflow_id checkpoint, w.checkpoints workflow_id = some checkpoint →
    R.Good w.calls checkpoint
  records : w.log.All fun id record => R.Note id record w.calls
  extra : R.Extra w

/-- Calls that come after those of `base`, with none among them that counts. -/
structure After (base calls : List Answered) : Prop where
  grown : base <+: calls
  same : R.counted calls = R.counted base

/-- Everything is justified, and nothing that counts was called since `base`. -/
def Stands (base : List Answered) (w : World) : Prop := R.Kept w ∧ R.After base w.calls

/-- The calls that store only what is justified. Running a command is none of them. -/
def Allowed (calls : List Answered) : Call → Prop
  | .append id content | .durable_prepare id content => R.Note id content calls
  | .save_if_unchanged checkpoint => R.Good calls checkpoint
  | .persist_recovery_receipt receipt =>
    R.Fit receipt.identity (verdict receipt.command_outcome) calls
  | .adaptive_execute _ _ _ _ => False
  | _ => True

/-- What is justified remains so. -/
structure Steady : Prop where
  fit_later : ∀ {identity verdict calls}, R.Fit identity verdict calls →
    ∀ answered, R.Fit identity verdict (calls ++ [answered])
  note_later : ∀ {id record calls}, R.Note id record calls →
    ∀ answered, R.Note id record (calls ++ [answered])
  extra_call : ∀ {call : Call}, call.runs = false → ∀ (choice : handler.Choice call) {w},
    R.Extra w → R.Extra (handler.handle call choice w).2
  counted_call : ∀ {call : Call}, call.runs = false → ∀ (answer : Res call) (calls),
    R.counted (calls ++ [⟨call, answer⟩]) = R.counted calls

variable {R} {w : World} {base calls calls' : List Answered}

theorem After.refl (calls : List Answered) : R.After calls calls := ⟨prefix_rfl, rfl⟩

theorem After.trans (h : R.After base calls) (h' : R.After calls calls') : R.After base calls' :=
  ⟨h.grown.trans h'.grown, h'.same.trans h.same⟩

theorem Kept.stands (h : R.Kept w) : R.Stands w.calls w := ⟨h, .refl _⟩

theorem Steady.fit_extends (hR : R.Steady) {v : Verdict}
    (h : R.Fit identity v calls) (hcalls : R.After calls calls') : R.Fit identity v calls' := by
  obtain ⟨more, rfl⟩ := hcalls.grown
  clear hcalls
  induction more using reverseRecOn with
  | nil => rwa [append_nil]
  | append_singleton more answered ih =>
    rw [← append_assoc]
    exact hR.fit_later ih answered

variable {checkpoint : WorkflowCheckpoint}

theorem Steady.good_extends (hR : R.Steady)
    (h : R.Good calls checkpoint) (hcalls : R.After calls calls') : R.Good calls' checkpoint :=
  fun receipt hreceipt => hR.fit_extends (h receipt hreceipt) hcalls

/-! ### One call -/

section

variable (h : ∀ workflow_id checkpoint, w.checkpoints workflow_id = some checkpoint →
  R.Good calls checkpoint)

include h

theorem good_put (hgood : R.Good calls checkpoint) :
    ∀ workflow_id checkpoint', (w.put_checkpoint checkpoint).checkpoints workflow_id
      = some checkpoint' → R.Good calls checkpoint' := by
  intro workflow_id checkpoint' hsome
  simp only [World.put_checkpoint] at hsome
  split at hsome
  · cases hsome
    exact hgood
  · exact h workflow_id checkpoint' hsome

theorem good_save {saved : World}
    (hsaved : ∀ workflow_id checkpoint, saved.checkpoints workflow_id = some checkpoint →
      R.Good calls checkpoint) :
    ∀ workflow_id checkpoint, (w.save choice saved).2.checkpoints workflow_id = some checkpoint →
      R.Good calls checkpoint := by
  unfold World.save
  split
  · exact hsaved
  · exact hsaved
  · exact h

end

variable {state : RecoveryReceiptState}

/-- A receipt that changes its state keeps its outcome, and fits as before. -/
theorem fit_set_receipt_state {receipts : List RecoveryReceipt}
    (h : ∀ receipt ∈ receipts, R.Fit receipt.identity (verdict receipt.command_outcome) calls) :
    ∀ receipt ∈ World.set_receipt_state identity state receipts,
      R.Fit receipt.identity (verdict receipt.command_outcome) calls := by
  induction receipts with
  | nil => exact h
  | cons first receipts ih =>
    intro receipt hreceipt
    rw [World.set_receipt_state] at hreceipt
    split at hreceipt
    · rcases mem_cons.mp hreceipt with rfl | hreceipt
      · exact h first mem_cons_self
      · exact h receipt (mem_cons_of_mem _ hreceipt)
    · rcases mem_cons.mp hreceipt with rfl | hreceipt
      · exact h _ mem_cons_self
      · exact ih (fun r hr => h r (mem_cons_of_mem _ hr)) receipt hreceipt

section

variable (h : ∀ workflow_id checkpoint, w.checkpoints workflow_id = some checkpoint →
  R.Good calls checkpoint)

include h

/-- A receipt that fits may be added to a good checkpoint. -/
theorem good_persist {receipt : RecoveryReceipt}
    (hfit : R.Fit receipt.identity (verdict receipt.command_outcome) calls) :
    ∀ workflow_id checkpoint,
      (w.persist_recovery_receipt choice receipt).2.checkpoints workflow_id = some checkpoint →
      R.Good calls checkpoint := by
  unfold World.persist_recovery_receipt
  split
  · exact h
  rename_i checkpoint hcheckpoint
  split
  · split <;> exact h
  split
  · exact h
  apply good_save h
  apply good_put h
  exact forall_mem_append.mpr ⟨h _ checkpoint hcheckpoint, forall_mem_singleton.mpr hfit⟩

theorem good_transition :
    ∀ workflow_id checkpoint,
      (w.transition_recovery_receipt choice identity state).2.checkpoints workflow_id
        = some checkpoint → R.Good calls checkpoint := by
  unfold World.transition_recovery_receipt
  split
  · exact h
  rename_i checkpoint hcheckpoint
  split
  · exact h
  split
  · exact h
  split
  · exact h
  · apply good_save h
    apply good_put h
    exact fit_set_receipt_state (h _ checkpoint hcheckpoint)

end

/-- Whatever an allowed call does to the checkpoints, their receipts fit. -/
theorem Kept.respond_receipts (h : R.Kept w) {call : Call} (hallowed : R.Allowed w.calls call)
    (choice : handler.Choice call) :
    ∀ workflow_id checkpoint,
      (w.respond call choice).2.checkpoints workflow_id = some checkpoint →
      R.Good w.calls checkpoint := by
  cases call with
  | persist_recovery_receipt receipt => exact good_persist h.receipts hallowed
  | transition_recovery_receipt identity state => exact good_transition h.receipts
  | save_if_unchanged checkpoint => exact good_save h.receipts (good_put h.receipts hallowed)
  | save_skill_issuance | remove_skill_issuance => exact good_save h.receipts h.receipts
  | durable_prepare id content =>
    intro workflow_id checkpoint hsome
    have hsame := congrFun
      (durable_prepare_eq w choice id content World.checkpoints fun _ => rfl) workflow_id
    exact h.receipts workflow_id checkpoint (hsame.symm.trans hsome)
  | _ => exact h.receipts

/-- Whatever an allowed call does to the journal, its records are such as the reading admits. -/
theorem Kept.respond_records (h : R.Kept w) {call : Call} (hallowed : R.Allowed w.calls call)
    (choice : handler.Choice call) :
    (handler.handle call choice w).2.log.All fun id record => R.Note id record w.calls := by
  by_cases hquiet : call.quiet = true
  · rw [handle_log w hquiet choice]
    exact h.records
  cases call with
  | append id content => exact h.records.append choice hallowed
  | durable_prepare id content =>
    have hall := h.records.append (Prod.fst choice) hallowed
    rw [← durable_prepare_log w choice id content] at hall
    exact hall
  | history id => exact h.records.kept (Log.history_spec choice id w.log).1
  | _ => exact absurd rfl hquiet

theorem Allowed.idle {call : Call} (h : R.Allowed calls call) : call.runs = false := by
  cases call with
  | adaptive_execute worker envelope page gate => exact h.elim
  | _ => rfl

/-- **What is stored by an allowed call is justified.** -/
theorem Kept.call (h : R.Kept w) (hR : R.Steady) (call : Call)
    (hallowed : R.Allowed w.calls call) (choice : handler.Choice call) :
    R.Kept (handler.handle call choice w).2 := by
  have hcalls := handle_calls w call choice
  refine ⟨?_, ?_, ?_⟩
  · intro workflow_id checkpoint hsome
    rw [hcalls]
    exact fun receipt hreceipt =>
      hR.fit_later (h.respond_receipts hallowed choice workflow_id checkpoint hsome receipt hreceipt) _
  · rw [hcalls]
    intro id hfree record hrecord
    exact hR.note_later (h.respond_records hallowed choice id hfree record hrecord) _
  · exact hR.extra_call hallowed.idle choice h.extra

theorem Stands.call (h : R.Stands base w) (hR : R.Steady) (call : Call)
    (hallowed : R.Allowed w.calls call) (choice : handler.Choice call) :
    R.Stands base (handler.handle call choice w).2 := by
  refine ⟨h.1.call hR call hallowed choice, h.2.trans ?_⟩
  rw [handle_calls]
  exact ⟨prefix_append _ _, hR.counted_call hallowed.idle _ _⟩

end Reading

/-! ## Tasks that keep a reading -/

variable {R : Reading} {base : List Answered} {α β : Type}

/-- A task that begins when the calls of `base` have been made keeps everything justified and calls
nothing that counts, and what it returns is `Q` by the calls that have been made then. -/
def Keeps (R : Reading) (base : List Answered) (p : Climb α) (Q : α → List Answered → Prop) : Prop :=
  ∀ w, R.Stands base w → Task.Keeps handler (R.Stands base) p (fun a w' => Q a w'.calls) w

section

variable {Q : α → List Answered → Prop} {Q' : β → List Answered → Prop}

theorem keeps_pure {a : α} (h : ∀ calls, R.After base calls → Q a calls) :
    Keeps R base (pure a) Q :=
  fun _ hw => Task.keeps_pure hw (h _ hw.2)

theorem keeps_done {a : α} : Keeps R base (pure a) fun _ _ => True := keeps_pure fun _ _ => trivial

theorem keeps_throw {e : CommandError} : Keeps R base (Task.throw e) Q :=
  fun _ hw => Task.keeps_throw hw

variable {p : Climb α} {f : α → Climb β}

/-- What follows a task knows what it has returned, and may rely on what was called by then. -/
theorem Keeps.bind (hp : Keeps R base p Q)
    (hf : ∀ a calls, R.After base calls → Q a calls → Keeps R calls (f a) Q') :
    Keeps R base (p >>= f) Q' := by
  refine fun w hw => (hp w hw).bind ?_
  intro a w' hw' hq skills
  have hbase {w'' : World} (h : R.Stands w'.calls w'') : R.Stands base w'' := ⟨h.1, hw'.2.trans h.2⟩
  refine (hf a w'.calls hw'.2 hq w' hw'.1.stands skills).mono (fun _ => hbase) ?_
  rintro out s' w'' ⟨hw'', hpost⟩
  exact ⟨hbase hw'', hpost⟩

theorem Keeps.post {Q₂ : α → List Answered → Prop} (hp : Keeps R base p Q)
    (h : ∀ a calls, R.After base calls → Q a calls → Q₂ a calls) : Keeps R base p Q₂ := by
  refine fun w hw skills => (hp w hw skills).post ?_
  rintro out s w' ⟨hw', hq⟩
  exact ⟨hw', fun a ha => h a _ hw'.2 (hq a ha)⟩

/-- What follows a task, where it does not matter what was called. -/
theorem Keeps.given {P : α → Prop} (hp : Keeps R base p fun a _ => P a)
    (hf : ∀ a, P a → Keeps R base (f a) Q') : Keeps R base (p >>= f) Q' :=
  fun w hw => (hp w hw).bind fun a w' hw' ha => hf a ha w' hw'

theorem Keeps.next (hp : Keeps R base p Q) (hf : ∀ a, Keeps R base (f a) Q') :
    Keeps R base (p >>= f) Q' :=
  (hp.post fun _ _ _ _ => trivial).given fun a _ => hf a

theorem keeps_get : Keeps R base Calls.Task.get fun _ _ => True :=
  fun _ hw _ => ⟨hw, fun _ _ => trivial⟩

theorem keeps_set (skills : SkillZigZagZig) : Keeps R base (Task.set skills) fun _ _ => True :=
  fun _ hw _ => ⟨hw, fun _ _ => trivial⟩

theorem keeps_expired : Keeps R base Task.expired fun _ _ => True :=
  fun _ hw _ => ⟨hw, fun _ => ⟨hw, fun _ _ => trivial⟩⟩

theorem keeps_of_except {ε' : Type} {translate : ε' → CommandError} {x : Except ε' α} :
    Keeps R base (Task.of_except translate x) fun a _ => x = .ok a := by
  cases x with
  | ok a => exact keeps_pure fun _ _ => rfl
  | error e => exact keeps_throw

theorem Keeps.attempt (hp : Keeps R base p Q) :
    Keeps R base p.attempt fun out calls => ∀ a, out = .ok a → Q a calls :=
  fun w hw => (hp w hw).attempt

theorem Keeps.within (hp : Keeps R base p Q) :
    Keeps R base p.within fun out calls => ∀ a, out = some a → Q a calls :=
  fun w hw => (hp w hw).within hw

theorem keeps_lift {p : Prog α} (h : ∀ w, R.Stands base w →
      Holds handler (R.Stands base) p (fun a w' => R.Stands base w' ∧ Q a w'.calls) w) :
    Keeps R base (Task.lift p) Q :=
  fun w hw => Task.keeps_lift (h w hw)

theorem keeps_call (hR : R.Steady) (hallowed : ∀ calls, R.After base calls → R.Allowed calls op) :
    Keeps R base (call op) fun answer calls => (⟨op, answer⟩ : Answered) ∈ calls := by
  apply keeps_lift
  intro w hw
  refine ⟨hw, fun choice => ⟨hw.call hR op (hallowed _ hw.2) choice, ?_⟩⟩
  exact mem_handle_calls rfl

/-- A call that stores nothing. -/
theorem keeps_call_bind (hR : R.Steady) {f : Res op → Climb β}
    (hallowed : ∀ {calls}, R.Allowed calls op) (hf : ∀ answer, Keeps R base (f answer) Q') :
    Keeps R base (call op >>= f) Q' :=
  (keeps_call hR fun _ _ => hallowed).next hf

section

variable {ε' : Type} {translate : ε' → CommandError} {answered : Res op → Except ε' α}

/-- A call that answers with an error or a result. -/
theorem keeps_store_bind (hR : R.Steady)
    (hallowed : ∀ calls, R.After base calls → R.Allowed calls op)
    (hf : ∀ a, Keeps R base (f a) Q') :
    Keeps R base (call op >>= fun answer => Task.of_except translate (answered answer) >>= f)
      Q' :=
  (keeps_call hR hallowed).next fun _ => keeps_of_except.next hf

theorem keeps_asked_bind (hR : R.Steady) (hallowed : ∀ {calls}, R.Allowed calls op)
    (hf : ∀ a, Keeps R base (f a) Q') :
    Keeps R base (call op >>= fun answer => Task.of_except translate (answered answer) >>= f)
      Q' :=
  keeps_store_bind hR (fun _ _ => hallowed) hf

theorem keeps_asked (hR : R.Steady) (hallowed : ∀ calls, R.After base calls → R.Allowed calls op) :
    Keeps R base (call op >>= fun answer => Task.of_except translate (answered answer))
      fun _ _ => True :=
  (keeps_call hR hallowed).next fun _ => keeps_of_except.post fun _ _ _ _ => trivial

end

/-- A checkpoint that is loaded is good: its receipts fit the calls so far. -/
theorem keeps_load_checkpoint (hR : R.Steady) (workflow_id : WorkflowId) :
    Keeps R base (call (.load_checkpoint workflow_id)) fun answer calls =>
      ∀ checkpoint, answer = .ok checkpoint → R.Good calls checkpoint := by
  apply keeps_lift
  intro w hw
  refine ⟨hw, fun choice => ⟨hw.call hR (.load_checkpoint workflow_id) trivial choice, ?_⟩⟩
  intro checkpoint hanswer
  refine hR.good_extends ?_ (hw.1.stands.call hR (.load_checkpoint workflow_id) trivial choice).2
  change w.load_checkpoint choice workflow_id = .ok checkpoint at hanswer
  unfold World.load_checkpoint at hanswer
  split at hanswer
  · nomatch hanswer
  split at hanswer
  · rename_i stored hstored
    rw [← Except.ok.inj hanswer]
    exact hw.1.receipts _ stored hstored
  · nomatch hanswer

end

end BobbyBrowser.Ladder
