/-
When a page may be read without the browser
(`crates/page-runtime/src/adaptive.rs`, `executor/execution/deadline.rs`).

The engine keeps a set of tainted pages: those that have seen a command other than a
read since they were last navigated. A whole page that is not tainted may be answered
by fetching its URL again. Commands run side by side, and an attempt that reaches its
deadline is dropped where it stands.
-/
import BobbyBrowser.Commands
import BobbyBrowser.Transition

set_option autoImplicit false

namespace BobbyBrowser.PageTaint

open Commands Transition Option Function

/-! ## The engine -/

def side_band_of_the_dom : RuntimeCommand → Bool
  | .primitive (.download_url _ _) => true
  | _ => false

def is_navigate : RuntimeCommand → Bool
  | .primitive (.navigate _) => true
  | _ => false

/-- The command may mutate the page it is for. -/
def may_mutate (command : RuntimeCommand) : Bool :=
  command.class ≠ .replayable && !side_band_of_the_dom command

def record_page_taint (taints : Finset PageId) (page_id : Option PageId) (command : RuntimeCommand)
    (succeeded : Bool) : Finset PageId :=
  match page_id with
  | none => taints
  | some page_id =>
    if is_navigate command then
      if succeeded then taints.erase page_id else insert page_id taints
    else if may_mutate command then insert page_id taints
    else taints

/-- `EligibilityPolicy::classify`, of a whole-page read: the selector may not parse, and the page's
URL may not be one that can be fetched. -/
inductive EligibilityDecision
  | direct_http
  | browser
  | denied
  deriving DecidableEq

def classify (selector_parses url_valid : Bool) (inspect : InspectCommand) : EligibilityDecision :=
  if inspect.target.isSome then .browser
  else if inspect.selector.isSome && !selector_parses then .browser
  else if url_valid then .direct_http
  else .denied

/-- What an attempt finds out about its page and its worker. -/
structure Surroundings where
  /-- The direct path is configured, and the worker mirrors the HTTP state. -/
  direct : Bool := true
  selector_parses : Bool := true
  url_valid : Bool := true
  /-- The fetch gives an answer, and does not fall back to the browser. -/
  fetched : Bool := true
  deriving DecidableEq

/-- The part of `execute_inner` that decides whether a read of the page is answered by a fetch. -/
def goes_direct (taints : Finset PageId) (page_id : PageId) (env : Surroundings) :
    RuntimeCommand → Bool
  | .primitive (.inspect inspect) =>
    env.direct && decide (page_id ∉ taints)
      && decide (classify env.selector_parses env.url_valid inspect = .direct_http) && env.fetched
  | _ => false

/-! ## Runs -/

/-- An attempt under way: its command, and whether it has turned to the direct path. -/
structure Attempt where
  page_id : Option PageId
  command : RuntimeCommand
  direct : Bool := false

/-- The engine, with two books: the pages on which a command that may mutate was started since their
last successful navigation, and the pages that were answered by a direct fetch, each with whether
it was one of those. -/
structure Engine where
  taints : Finset PageId := ∅
  attempts : ℕ → Option Attempt := fun _ => none
  touched : Finset PageId := ∅
  answered : List (PageId × Bool) := []

inductive Action
  /-- `execute` is called. -/
  | start (task : ℕ) (page_id : Option PageId) (command : RuntimeCommand)
  /-- A read looks at the taints and goes one way or the other. -/
  | decide (task : ℕ) (env : Surroundings)
  /-- `execute_inner` returns, and the taint is recorded. -/
  | finish (task : ℕ) (succeeded : Bool)
  /-- The deadline passes: the attempt is dropped. -/
  | expire (task : ℕ)

/-- The books when an attempt has returned. -/
def Engine.close (e : Engine) (attempt : Attempt) (succeeded : Bool) : Engine :=
  match attempt.page_id with
  | none => e
  | some page_id =>
    { e with
      touched := if is_navigate attempt.command && succeeded then e.touched.erase page_id else e.touched
      answered := if attempt.direct && succeeded then e.answered ++ [(page_id, decide (page_id ∈ e.touched))]
        else e.answered }

def step (e : Engine) : Action → Option Engine
  | .start task page_id command =>
    if (e.attempts task).isSome then none
    else some { e with
      attempts := Function.update e.attempts task (some ⟨page_id, command, false⟩)
      touched := if may_mutate command then page_id.elim e.touched (insert · e.touched)
        else e.touched }
  | .decide task env =>
    (e.attempts task).bind fun attempt => attempt.page_id.map fun page_id =>
      let direct := goes_direct e.taints page_id env attempt.command
      { e with attempts := Function.update e.attempts task (some { attempt with direct }) }
  | .finish task succeeded =>
    (e.attempts task).map fun attempt =>
      { e.close attempt succeeded with
        taints := record_page_taint e.taints attempt.page_id attempt.command succeeded
        attempts := Function.update e.attempts task none }
  | .expire task =>
    (e.attempts task).map fun _ => { e with attempts := Function.update e.attempts task none }

/-- The attempt is at a command that may mutate the page. -/
def Attempt.Mutates (attempt : Attempt) (page_id : PageId) : Prop :=
  attempt.page_id = some page_id ∧ may_mutate attempt.command = true

/-- A command that may mutate the page is under way. -/
def Engine.Busy (e : Engine) (page_id : PageId) : Prop :=
  ∃ task, ∃ attempt ∈ e.attempts task, attempt.Mutates page_id

/-- **The condition on steps.** A command that may mutate a page starts while no read of that page
goes direct, a read decides while no such command is under way, and such a command reaches its
deadline only on a page that is tainted already. -/
def Orderly (e : Engine) : Action → Prop
  | .start _ page command => ∀ page_id, Attempt.Mutates ⟨page, command, false⟩ page_id →
    ∀ other, ∀ attempt ∈ e.attempts other, attempt.direct = true → attempt.page_id ≠ some page_id
  | .decide task _ => ∀ attempt ∈ e.attempts task, ∀ page_id ∈ attempt.page_id, ¬ e.Busy page_id
  | .finish _ _ => True
  | .expire task => ∀ attempt ∈ e.attempts task, ∀ page_id, attempt.Mutates page_id →
    page_id ∈ e.taints

/-- A page that was touched is tainted or about to be, and a read that goes direct is of a page that
was not touched. -/
structure Inv (e : Engine) : Prop where
  touched : ∀ page_id ∈ e.touched, page_id ∈ e.taints ∨ e.Busy page_id
  direct : ∀ task, ∀ attempt ∈ e.attempts task, attempt.direct = true →
    ∀ page_id ∈ attempt.page_id, page_id ∉ e.touched
  answered : ∀ answer ∈ e.answered, answer.2 = false

variable {e e' : Engine} {task : ℕ} {attempt : Attempt} {page_id : PageId} {taints : Finset PageId}
  {command : RuntimeCommand} {env : Surroundings}

theorem goes_direct_spec (h : goes_direct taints page_id env command) : page_id ∉ taints := by
  unfold goes_direct at h
  split at h
  · simp only [Bool.and_eq_true, decide_eq_true_eq] at h
    exact h.1.1.2
  · nomatch h

variable {succeeded : Bool}

/-- What is recorded of an attempt that may have mutated its page. -/
theorem tainted_of_mutates (h : attempt.Mutates page_id) :
    page_id ∈ record_page_taint taints attempt.page_id attempt.command succeeded := by
  have hnavigate : is_navigate attempt.command = false := by
    cases hcommand : is_navigate attempt.command with
    | false => rfl
    | true =>
      unfold is_navigate at hcommand
      split at hcommand
      · rename_i heq
        have := h.2
        rw [heq] at this
        nomatch this
      · nomatch hcommand
  simp [record_page_taint, h.1, hnavigate, h.2]

/-- Only a navigation of the page takes its taint away. -/
theorem mem_record_page_taint (h : page_id ∈ taints)
    (hother : ¬ (attempt.page_id = some page_id ∧ is_navigate attempt.command = true ∧ succeeded = true)) :
    page_id ∈ record_page_taint taints attempt.page_id attempt.command succeeded := by
  unfold record_page_taint
  split
  · exact h
  rename_i page hpage
  split
  · rename_i hnavigate
    split
    · rename_i hsucceeded
      refine Finset.mem_erase.mpr ⟨?_, h⟩
      rintro rfl
      exact hother ⟨hpage, hnavigate, hsucceeded⟩
    · exact Finset.mem_insert_of_mem h
  · split
    · exact Finset.mem_insert_of_mem h
    · exact h

variable {changed : Option Attempt}

/-- An attempt of the next state is the one that changed or was there before. -/
theorem mem_update {attempts : ℕ → Option Attempt} {other : ℕ}
    (h : attempt ∈ Function.update attempts task changed other) :
    attempt ∈ changed ∨ attempt ∈ attempts other := by
  by_cases hsame : other = task
  · rw [hsame, update_self] at h
    exact .inl h
  · rw [update_of_ne hsame] at h
    exact .inr h

/-- A page stays busy while another attempt changes, and while its own goes on. -/
theorem Engine.Busy.update (h : e.Busy page_id)
    (hchanged : ∀ attempt ∈ e.attempts task, attempt.Mutates page_id →
      ∃ next ∈ changed, next.Mutates page_id) :
    ∃ other, ∃ attempt ∈ Function.update e.attempts task changed other, attempt.Mutates page_id := by
  obtain ⟨other, attempt, hattempt, hmutates⟩ := h
  by_cases hsame : other = task
  · subst hsame
    obtain ⟨next, hnext, hmutates⟩ := hchanged attempt hattempt hmutates
    exact ⟨other, next, by rwa [update_self], hmutates⟩
  · exact ⟨other, attempt, by rwa [update_of_ne hsame], hmutates⟩

/-- A command that starts may touch its page, as no direct read of it is under way. -/
theorem Inv.start {page : Option PageId} (h : Inv e)
    (hok : Orderly e (.start task page command)) (hstep : step e (.start task page command) = some e') :
    Inv e' := by
  simp only [step] at hstep
  split at hstep
  · nomatch hstep
  rename_i hfree
  rw [← some.inj hstep]
  have hnone : e.attempts task = none := by simpa using hfree
  have hnew : ∀ page_id, page_id ∈ (if may_mutate command then page.elim e.touched (insert · e.touched)
      else e.touched) → page_id ∈ e.touched ∨ Attempt.Mutates ⟨page, command, false⟩ page_id := by
    intro page_id hpage
    split at hpage
    · rename_i hmutates
      cases page with
      | none => exact .inl hpage
      | some page =>
        rcases Finset.mem_insert.mp hpage with rfl | hpage
        · exact .inr ⟨rfl, hmutates⟩
        · exact .inl hpage
    · exact .inl hpage
  refine ⟨?_, ?_, h.answered⟩
  · intro page_id hpage
    rcases hnew page_id hpage with hold | hmutates
    · refine (h.touched page_id hold).imp_right fun hbusy => hbusy.update ?_
      intro attempt hattempt
      rw [hnone] at hattempt
      nomatch hattempt
    · exact .inr ⟨task, _, update_self .., hmutates⟩
  · intro other attempt hattempt hdirect page_id hpage htouched
    rcases mem_update hattempt with hself | hold
    · cases hself
      nomatch hdirect
    · rcases hnew page_id htouched with htouched | hmutates
      · exact h.direct other attempt hold hdirect page_id hpage htouched
      · exact hok page_id hmutates other attempt hold hdirect hpage

/-- A read is decided while nothing that may mutate its page is under way, so a page without a taint
was not touched. -/
theorem Inv.decide (h : Inv e) (hok : Orderly e (.decide task env))
    (hstep : step e (.decide task env) = some e') : Inv e' := by
  obtain ⟨attempt, hattempt, hstep⟩ := bind_eq_some_iff.mp hstep
  obtain ⟨page, hpage, rfl⟩ := map_eq_some_iff.mp hstep
  refine ⟨?_, ?_, h.answered⟩
  · intro page_id htouched
    refine (h.touched page_id htouched).imp_right fun hbusy => hbusy.update ?_
    intro found hfound hmutates
    obtain rfl := some.inj (hattempt.symm.trans hfound)
    exact ⟨_, rfl, hmutates⟩
  intro other found hfound hdirect page_id hmem htouched
  rcases mem_update hfound with hself | hold
  · cases hself
    obtain rfl := some.inj (hpage.symm.trans hmem)
    rcases h.touched page htouched with htainted | hbusy
    · exact goes_direct_spec hdirect htainted
    · exact hok attempt hattempt page hpage hbusy
  · exact h.direct other found hold hdirect page_id hmem htouched

/-- A page that is still touched was so before, and the attempt did not navigate it. -/
theorem touched_of_close (h : page_id ∈ (e.close attempt succeeded).touched) :
    page_id ∈ e.touched ∧ ¬ (attempt.page_id = some page_id ∧ is_navigate attempt.command = true
      ∧ succeeded = true) := by
  unfold Engine.close at h
  split at h
  · rename_i hpage
    exact ⟨h, by simp [hpage]⟩
  rename_i page hpage
  split at h
  · obtain ⟨hne, hmem⟩ := Finset.mem_erase.mp h
    refine ⟨hmem, fun hsame => hne ?_⟩
    exact some.inj (hsame.1.symm.trans hpage)
  · rename_i hother
    exact ⟨h, fun hsame => hother (by simp [hsame.2])⟩

/-- A command that may have mutated its page taints it at its end. -/
theorem Inv.finish (h : Inv e) (hstep : step e (.finish task succeeded) = some e') : Inv e' := by
  obtain ⟨attempt, hattempt, rfl⟩ := map_eq_some_iff.mp hstep
  refine ⟨?_, ?_, ?_⟩
  · intro page_id htouched
    obtain ⟨htouched, hother⟩ := touched_of_close htouched
    rcases h.touched page_id htouched with htainted | hbusy
    · exact .inl (mem_record_page_taint htainted hother)
    by_cases hmutates : attempt.Mutates page_id
    · exact .inl (tainted_of_mutates hmutates)
    · refine .inr (hbusy.update ?_)
      intro found hfound hfound'
      obtain rfl := some.inj (hattempt.symm.trans hfound)
      exact absurd hfound' hmutates
  · intro other found hfound hdirect page_id hpage htouched
    rcases mem_update hfound with hself | hold
    · nomatch hself
    · exact h.direct other found hold hdirect page_id hpage (touched_of_close htouched).1
  intro answer hanswer
  simp only [Engine.close] at hanswer
  split at hanswer
  · exact h.answered answer hanswer
  rename_i page hpage
  simp only at hanswer
  split at hanswer
  · rename_i hdirect
    rcases List.mem_append.mp hanswer with hold | hnew
    · exact h.answered answer hold
    · rw [List.mem_singleton.mp hnew]
      simp only [Bool.and_eq_true] at hdirect
      exact decide_eq_false (h.direct task attempt hattempt hdirect.1 page hpage)
  · exact h.answered answer hanswer

/-- A mutating command that expires leaves no taint, so its page must have one already. -/
theorem Inv.expire (h : Inv e) (hok : Orderly e (.expire task))
    (hstep : step e (.expire task) = some e') : Inv e' := by
  obtain ⟨attempt, hattempt, rfl⟩ := map_eq_some_iff.mp hstep
  refine ⟨?_, ?_, h.answered⟩
  · intro page_id htouched
    rcases h.touched page_id htouched with htainted | hbusy
    · exact .inl htainted
    by_cases hmutates : attempt.Mutates page_id
    · exact .inl (hok attempt hattempt page_id hmutates)
    · refine .inr (hbusy.update ?_)
      intro found hfound hfound'
      obtain rfl := some.inj (hattempt.symm.trans hfound)
      exact absurd hfound' hmutates
  · intro other found hfound
    rcases mem_update hfound with hself | hold
    · nomatch hself
    · exact h.direct other found hold

theorem Inv.step {action : Action} (h : Inv e) (hok : Orderly e action)
    (hstep : PageTaint.step e action = some e') : Inv e' := by
  cases action with
  | start task page command => exact h.start hok hstep
  | decide task env => exact h.decide hok hstep
  | finish task succeeded => exact h.finish hstep
  | expire task => exact h.expire hok hstep

/-- **In every run whose steps are all orderly, a page that is answered by a direct fetch has seen no
command that may mutate it since its last successful navigation.** -/
theorem untouched_pages_answered_directly (e : Engine)
    (h : Reachable (· = {}) step Orderly e) : ∀ answer ∈ e.answered, answer.2 = false := by
  have hinv : Inv e := by
    refine h.invariant ?_ fun e action e' hinv hok hstep => hinv.step hok hstep
    rintro e rfl
    exact {
      touched := fun _ h => absurd h (Finset.notMem_empty _)
      direct := fun _ _ h => nomatch h
      answered := fun _ h => nomatch h }
  exact hinv.answered

/-- A click that does not end before its deadline leaves no taint, and the next read of the page is
fetched. -/
theorem expired_click_then_direct_read :
    (run step {} [.start 0 (some 1) (.primitive (.click { selector := "", boundary := false })),
      .expire 0, .start 1 (some 1) (.primitive (.inspect {})), .decide 1 {},
      .finish 1 true]).map Engine.answered = some [(1, true)] := by
  decide +kernel

/-- No attempt is under way. -/
def Engine.Idle (e : Engine) : Prop := ∀ task, e.attempts task = none

/-- A command that is started alone keeps to the condition. -/
theorem Engine.Idle.start {page : Option PageId} (h : e.Idle)
    (hstep : step e (.start task page command) = some e') :
    Orderly e (.start task page command)
      ∧ e'.attempts = update e.attempts task (some ⟨page, command, false⟩) := by
  constructor
  · intro page_id _ other attempt hattempt
    rw [h other] at hattempt
    nomatch hattempt
  · rw [step, h task] at hstep
    cases hstep
    rfl

theorem Engine.Idle.finish {attempts : ℕ → Option Attempt} (h : e.Idle)
    (hattempts : e'.attempts = update attempts task none)
    (hothers : ∀ other, other ≠ task → attempts other = e.attempts other) : e'.Idle := by
  intro other
  rw [hattempts]
  by_cases hsame : other = task
  · rw [hsame, update_self]
  · rw [update_of_ne hsame, hothers other hsame, h other]

theorem attempts_finish (hstep : step e (.finish task succeeded) = some e') :
    e'.attempts = update e.attempts task none := by
  obtain ⟨attempt, -, rfl⟩ := map_eq_some_iff.mp hstep
  rfl

/-- A command served alone. -/
theorem reachable_served (task : ℕ) (page : Option PageId) (command : RuntimeCommand)
    (succeeded : Bool) (h : Reachable (· = {}) step Orderly e ∧ e.Idle)
    (hrun : run step e [.start task page command, .finish task succeeded] = some e') :
    Reachable (· = {}) step Orderly e' ∧ e'.Idle := by
  obtain ⟨hreachable, hidle⟩ := h
  obtain ⟨started, hstart, hrun⟩ := bind_eq_some_iff.mp hrun
  obtain ⟨finished, hfinish, hrun⟩ := bind_eq_some_iff.mp hrun
  cases hrun
  obtain ⟨horderly, hattempts⟩ := hidle.start hstart
  refine ⟨(hreachable.next horderly hstart).next (a := .finish task succeeded) True.intro hfinish, ?_⟩
  refine hidle.finish (attempts_finish hfinish) fun other hne => ?_
  rw [hattempts, update_of_ne hne]

/-- A read served alone. -/
theorem reachable_read (task : ℕ) (page : Option PageId) (command : RuntimeCommand)
    (env : Surroundings) (succeeded : Bool) (h : Reachable (· = {}) step Orderly e ∧ e.Idle)
    (hread : may_mutate command = false)
    (hrun : run step e [.start task page command, .decide task env, .finish task succeeded]
      = some e') : Reachable (· = {}) step Orderly e' ∧ e'.Idle := by
  obtain ⟨hreachable, hidle⟩ := h
  obtain ⟨started, hstart, hrun⟩ := bind_eq_some_iff.mp hrun
  obtain ⟨decided, hdecide, hrun⟩ := bind_eq_some_iff.mp hrun
  obtain ⟨finished, hfinish, hrun⟩ := bind_eq_some_iff.mp hrun
  cases hrun
  obtain ⟨horderly, hattempts⟩ := hidle.start hstart
  have hfree : Orderly started (.decide task env) := by
    rintro attempt - page_id - ⟨other, found, hfound, -, hmutates⟩
    rw [hattempts] at hfound
    rcases mem_update hfound with hself | hold
    · cases hself
      exact absurd (hread.symm.trans hmutates) Bool.false_ne_true
    · rw [hidle other] at hold
      nomatch hold
  refine ⟨((hreachable.next horderly hstart).next hfree hdecide).next
    (a := .finish task succeeded) True.intro hfinish, ?_⟩
  refine hidle.finish (attempts_finish hfinish) fun other hne => ?_
  obtain ⟨attempt, -, hdecide⟩ := bind_eq_some_iff.mp hdecide
  obtain ⟨page_id, -, rfl⟩ := map_eq_some_iff.mp hdecide
  dsimp only
  rw [update_of_ne hne, hattempts, update_of_ne hne]

/-- A page is clicked on and read from the browser; once it has been navigated, the next read is
fetched. -/
theorem untouched_page_read_directly :
    ∃ e ∈ run step {} [.start 0 (some 1) (.primitive (.click { selector := "", boundary := false })),
        .finish 0 true, .start 1 (some 1) (.primitive (.inspect {})), .decide 1 {}, .finish 1 true,
        .start 2 (some 1) (.primitive (.navigate ⟨"", .network_idle, 0⟩)), .finish 2 true,
        .start 3 (some 1) (.primitive (.inspect {})), .decide 3 {}, .finish 3 true],
      e.answered.length = 1 ∧ ∀ answer ∈ e.answered, answer.2 = false := by
  have hempty : Reachable (· = {}) step Orderly {} ∧ Engine.Idle {} := ⟨.start rfl, fun _ => rfl⟩
  have hclicked := reachable_served 0 (some 1)
    (.primitive (.click { selector := "", boundary := false })) true hempty rfl
  have hread := reachable_read 1 (some 1) (.primitive (.inspect {})) {} true hclicked rfl rfl
  have hnavigated := reachable_served 2 (some 1) (.primitive (.navigate ⟨"", .network_idle, 0⟩)) true hread rfl
  have hfetched := reachable_read 3 (some 1) (.primitive (.inspect {})) {} true hnavigated rfl rfl
  exact ⟨_, rfl, by decide, untouched_pages_answered_directly _ hfetched.1⟩

end BobbyBrowser.PageTaint
