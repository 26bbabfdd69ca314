/-
Transition systems given by an executable step.

A system is a set of initial states and a step that, for an action, either
refuses it or gives the next state. `Reachable` is the set of states a run can
lead to when every action of the run meets a condition on the state it is taken
in; the unconditional case is the condition that always holds.
-/
import Mathlib.Logic.Basic

set_option autoImplicit false

namespace BobbyBrowser.Transition

open Option

variable {σ α : Type}

/-- States reached by runs from `init` whose actions all meet `ok`. -/
inductive Reachable (init : σ → Prop) (step : σ → α → Option σ) (ok : σ → α → Prop) : σ → Prop
  | start {s : σ} (h : init s) : Reachable init step ok s
  | next {s t : σ} {a : α} (hs : Reachable init step ok s) (ha : ok s a)
      (ht : step s a = some t) : Reachable init step ok t

variable {init : σ → Prop} {step : σ → α → Option σ} {ok : σ → α → Prop}

/-- **The invariant rule.** What holds initially and is kept by every step that
meets the condition holds of every reachable state. -/
theorem Reachable.invariant {I : σ → Prop} (hinit : ∀ s, init s → I s)
    (hstep : ∀ s a t, I s → ok s a → step s a = some t → I t) {s : σ}
    (h : Reachable init step ok s) : I s := by
  induction h with
  | start h => exact hinit _ h
  | next _ ha ht ih => exact hstep _ _ _ ih ha ht

/-- Take a list of actions in order. -/
def run (step : σ → α → Option σ) : σ → List α → Option σ
  | s, [] => some s
  | s, a :: as => (step s a).bind (run step · as)

/-- Where a run leads whose actions all meet the condition is reachable. -/
theorem reachable_of_run {s t : σ} {as : List α} (hs : Reachable init step ok s)
    (hok : ∀ a ∈ as, ∀ s, ok s a) (h : run step s as = some t) : Reachable init step ok t := by
  induction as generalizing s with
  | nil =>
    cases h
    exact hs
  | cons a as ih =>
    obtain ⟨u, hu, ht⟩ := bind_eq_some_iff.mp h
    exact ih (.next hs (hok a List.mem_cons_self s) hu)
      (fun b hb => hok b (List.mem_cons_of_mem _ hb)) ht

/-- A run that leads to a state as wanted shows that one is reachable. -/
theorem exists_of_run {P : σ → Prop} {s : σ} (as : List α) (hs : init s)
    (hok : ∀ a ∈ as, ∀ s, ok s a) (h : ∃ t ∈ run step s as, P t) :
    ∃ t, Reachable init step ok t ∧ P t := by
  obtain ⟨t, ht, hP⟩ := h
  exact ⟨t, reachable_of_run (.start hs) hok ht, hP⟩

theorem of_guard {c : Prop} [Decidable c] {s t : σ} (h : (if c then some s else none) = some t) :
    c ∧ s = t := by
  obtain ⟨hc, heq⟩ := ite_none_right_eq_some.mp h
  exact ⟨hc, some.inj heq⟩

/-- The steps that meet the condition. -/
def orderly (step : σ → α → Option σ) (ok : σ → α → Prop) [∀ s a, Decidable (ok s a)] (s : σ)
    (a : α) : Option σ :=
  if ok s a then step s a else none

/-- Where a run of such steps leads is reachable. -/
theorem reachable_of_orderly_run [∀ s a, Decidable (ok s a)] {s t : σ} {as : List α}
    (hs : Reachable init step ok s) (h : run (orderly step ok) s as = some t) :
    Reachable init step ok t := by
  induction as generalizing s with
  | nil =>
    cases h
    exact hs
  | cons a as ih =>
    obtain ⟨u, hu, ht⟩ := bind_eq_some_iff.mp h
    unfold orderly at hu
    split at hu
    · rename_i hok
      exact ih (.next hs hok hu) ht
    · nomatch hu

theorem exists_of_orderly_run [∀ s a, Decidable (ok s a)] {P : σ → Prop} {s : σ} (as : List α)
    (hs : init s) (h : ∃ t ∈ run (orderly step ok) s as, P t) :
    ∃ t, Reachable init step ok t ∧ P t := by
  obtain ⟨t, ht, hP⟩ := h
  exact ⟨t, reachable_of_orderly_run (.start hs) ht, hP⟩

theorem reachable_of_isSome_run [∀ s a, Decidable (ok s a)] {s : σ} {as : List α}
    (hs : Reachable init step ok s) (h : (run (orderly step ok) s as).isSome = true) :
    Reachable init step ok ((run (orderly step ok) s as).getD s) := by
  obtain ⟨t, ht⟩ := isSome_iff_exists.mp h
  rw [ht]
  exact reachable_of_orderly_run hs ht

end BobbyBrowser.Transition
