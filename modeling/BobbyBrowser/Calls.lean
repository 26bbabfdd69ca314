/-
Programs that call out.

A program is a tree: it returns, or it makes a call and goes on with what the
call answers, or it looks whether a timer has fired. What a call does is left to
a handler, which works on a state and takes the part of the surroundings as a
choice. A program may be followed to its end (`run`), or until the process that
runs it stops between two calls (`stop`).

`Holds` is the weakest precondition of both: it says that `Q` holds when the
program returns, and that `I` holds wherever it can stop before that.
-/
import Mathlib.Data.Nat.Notation
import Mathlib.Logic.Basic

set_option autoImplicit false

namespace BobbyBrowser.Calls

variable {Op : Type} {Res : Op → Type} {α β σ : Type}

/-- A program whose calls are `Op` and are answered as `Res` says. -/
inductive Prog (Res : Op → Type) (α : Type) : Type
  | pure (a : α)
  | call (op : Op) (k : Res op → Prog Res α)
  /-- Has the timer around this part fired? -/
  | timer (k : Bool → Prog Res α)

namespace Prog

/-- One program after the other. -/
def bind : Prog Res α → (α → Prog Res β) → Prog Res β
  | pure a, f => f a
  | call op k, f => call op fun r => (k r).bind f
  | timer k, f => timer fun fired => (k fired).bind f

instance : Monad (Prog Res) where
  pure := Prog.pure
  bind := Prog.bind

/-- Make one call. -/
def ask (op : Op) : Prog Res (Res op) := call op pure

/-- What `within` does once the timer runs: the rest is dropped when it is found to have fired
after a call. -/
def timed : Prog Res α → Prog Res (Option α)
  | pure a => pure (some a)
  | call op k => call op fun r => timer fun fired => bif fired then pure none else (k r).timed
  | timer k => timer fun fired => (k fired).timed

/-- `tokio::time::timeout`: the program is dropped between two calls, and whatever the last call
did is done. -/
def within (p : Prog Res α) : Prog Res (Option α) :=
  timer fun fired => bif fired then pure none else p.timed

end Prog

/-- What calls do: the answer and the next state are determined by a choice of the surroundings. -/
structure Handler (Res : Op → Type) (σ : Type) where
  Choice : Op → Type
  handle : (op : Op) → Choice op → σ → Res op × σ

/-- The surroundings of a run: what they choose for the `n`-th call, and whether a timer that is
looked at then has fired. -/
structure Env (H : Handler Res σ) where
  choose : ℕ → (op : Op) → H.Choice op
  fired : ℕ → Bool

section

variable (H : Handler Res σ) (env : Env H)

/-- Follow a program to its end. -/
def run : ℕ → Prog Res α → σ → α × σ
  | _, .pure a, s => (a, s)
  | n, .call op k, s =>
    run (n + 1) (k (H.handle op (env.choose n op) s).1) (H.handle op (env.choose n op) s).2
  | n, .timer k, s => run (n + 1) (k (env.fired n)) s

/-- Follow a program for at most `fuel` calls. Without a result the process has stopped there. -/
def stop : ℕ → ℕ → Prog Res α → σ → Option α × σ
  | _, _, .pure a, s => (some a, s)
  | 0, _, .call _ _, s => (none, s)
  | 0, _, .timer _, s => (none, s)
  | fuel + 1, n, .call op k, s =>
    stop fuel (n + 1) (k (H.handle op (env.choose n op) s).1) (H.handle op (env.choose n op) s).2
  | fuel + 1, n, .timer k, s => stop fuel (n + 1) (k (env.fired n)) s

/-- From the state the program returns only with `Q`, and stops before that only with `I`. -/
def Holds (I : σ → Prop) : Prog Res α → (α → σ → Prop) → σ → Prop
  | .pure a, Q, s => Q a s
  | .call op k, Q, s =>
    I s ∧ ∀ c, Holds I (k (H.handle op c s).1) Q (H.handle op c s).2
  | .timer k, Q, s => I s ∧ ∀ fired, Holds I (k fired) Q s

end

variable {H : Handler Res σ} {I J : σ → Prop} {Q R : α → σ → Prop} {s : σ}

/-! ## The rules -/

variable {op : Op}

theorem holds_ask {Q : Res op → σ → Prop} (hstop : I s)
    (h : ∀ c, Q (H.handle op c s).1 (H.handle op c s).2) : Holds H I (.ask op) Q s :=
  ⟨hstop, h⟩

variable {p : Prog Res α} {f : α → Prog Res β}

/-- **Sequencing.** -/
theorem holds_bind {Q : β → σ → Prop}
    (h : Holds H I p (fun a t => Holds H I (f a) Q t) s) : Holds H I (p >>= f) Q s := by
  induction p generalizing s with
  | pure a => exact h
  | call op k ih =>
    obtain ⟨hstop, h⟩ := h
    exact ⟨hstop, fun c => ih _ (h c)⟩
  | timer k ih =>
    obtain ⟨hstop, h⟩ := h
    exact ⟨hstop, fun fired => ih fired (h fired)⟩

/-- **Consequence.** -/
theorem Holds.mono (h : Holds H I p Q s) (hstop : ∀ t, I t → J t)
    (hpost : ∀ a t, Q a t → R a t) : Holds H J p R s := by
  induction p generalizing s with
  | pure a => exact hpost a s h
  | call op k ih =>
    obtain ⟨hs, h⟩ := h
    exact ⟨hstop s hs, fun c => ih _ (h c)⟩
  | timer k ih =>
    obtain ⟨hs, h⟩ := h
    exact ⟨hstop s hs, fun fired => ih fired (h fired)⟩

theorem Holds.post (h : Holds H I p Q s) (hpost : ∀ a t, Q a t → R a t) : Holds H I p R s :=
  h.mono (fun _ ht => ht) hpost

/-- Two things that hold, hold together. -/
theorem Holds.and (h : Holds H I p Q s) (h' : Holds H J p R s) :
    Holds H (fun t => I t ∧ J t) p (fun a t => Q a t ∧ R a t) s := by
  induction p generalizing s with
  | pure a => exact ⟨h, h'⟩
  | call op k ih => exact ⟨⟨h.1, h'.1⟩, fun c => ih _ (h.2 c) (h'.2 c)⟩
  | timer k ih => exact ⟨⟨h.1, h'.1⟩, fun fired => ih fired (h.2 fired) (h'.2 fired)⟩

/-- A call, and what follows it. -/
theorem holds_ask_bind {f : Res op → Prog Res β} {Q : β → σ → Prop} (hstop : I s)
    (h : ∀ c, Holds H I (f (H.handle op c s).1) Q (H.handle op c s).2) :
    Holds H I (.ask op >>= f) Q s :=
  holds_bind (holds_ask hstop h)

/-- What holds of both ways to end holds where the timer cuts the program. -/
theorem holds_timed (h : Holds H I p Q s) (hpost : ∀ a t, Q a t → I t) :
    Holds H I p.timed (fun r t => match r with
      | some a => Q a t
      | none => I t) s := by
  induction p generalizing s with
  | pure a => exact h
  | call op k ih =>
    obtain ⟨hs, h⟩ := h
    refine ⟨hs, fun c => ?_⟩
    have hnext : I (H.handle op c s).2 := by
      -- the program has returned by now, or could stop here
      have hk := h c
      revert hk
      cases k (H.handle op c s).1 with
      | pure a => exact hpost a _
      | call | timer => exact And.left
    refine ⟨hnext, fun fired => ?_⟩
    cases fired with
    | true => exact hnext
    | false => exact ih _ (h c)
  | timer k ih =>
    obtain ⟨hs, h⟩ := h
    exact ⟨hs, fun fired => ih fired (h fired)⟩

/-- **Timeouts.** -/
theorem holds_within (hstop : I s) (h : Holds H I p Q s) (hpost : ∀ a t, Q a t → I t) :
    Holds H I p.within (fun r t => match r with
      | some a => Q a t
      | none => I t) s := by
  refine ⟨hstop, fun fired => ?_⟩
  cases fired with
  | true => exact hstop
  | false => exact holds_timed h hpost

/-! ## Programs that make only some calls -/

/-- Every call the program can make is one of `A`. -/
def Only (A : Op → Prop) : Prog Res α → Prop
  | .pure _ => True
  | .call op k => A op ∧ ∀ r, Only A (k r)
  | .timer k => ∀ fired, Only A (k fired)

section

variable {A : Op → Prop}

theorem only_pure (a : α) : Only A (pure a : Prog Res α) := trivial

theorem only_ask (h : A op) : Only A (.ask op : Prog Res (Res op)) := ⟨h, fun _ => trivial⟩

theorem only_bind (hp : Only A p) (hf : ∀ a, Only A (f a)) : Only A (p >>= f) := by
  induction p with
  | pure a => exact hf a
  | call op k ih => exact ⟨hp.1, fun r => ih r (hp.2 r)⟩
  | timer k ih => exact fun fired => ih fired (hp fired)

theorem only_ask_bind {f : Res op → Prog Res β} (h : A op) (hf : ∀ r, Only A (f r)) :
    Only A (.ask op >>= f) :=
  only_bind (only_ask h) hf

theorem only_all (p : Prog Res α) : Only (fun _ => True) p := by
  induction p with
  | pure a => exact trivial
  | call op k ih => exact ⟨trivial, ih⟩
  | timer k ih => exact ih

/-- **What all the calls of a program keep, the program keeps.** -/
theorem Only.holds (h : Only A p)
    (hkeep : ∀ op, A op → ∀ c s, I s → I (H.handle op c s).2) (hs : I s) :
    Holds H I p (fun _ => I) s := by
  induction p generalizing s with
  | pure a => exact hs
  | call op k ih => exact ⟨hs, fun c => ih _ (h.2 _) (hkeep op h.1 c s hs)⟩
  | timer k ih => exact ⟨hs, fun fired => ih fired (h fired) hs⟩

end

/-! ## Programs that keep to a protocol -/

section

variable {τ : Type}

/-- From the stage every call of the program moves as the protocol says, and it returns only with
`Q`. -/
def Follows (M : τ → (op : Op) → Res op → τ → Prop) : Prog Res α → (α → τ → Prop) → τ → Prop
  | .pure a, Q, t => Q a t
  | .call op k, Q, t => ∀ r, ∃ t', M t op r t' ∧ Follows M (k r) Q t'
  | .timer k, Q, t => ∀ fired, Follows M (k fired) Q t

variable {M : τ → (op : Op) → Res op → τ → Prop} {t : τ} {Q : β → τ → Prop}

theorem follows_bind
    (h : Follows M p (fun a t => Follows M (f a) Q t) t) : Follows M (p >>= f) Q t := by
  induction p generalizing t with
  | pure a => exact h
  | call op k ih =>
    intro r
    obtain ⟨t', hmove, hnext⟩ := h r
    exact ⟨t', hmove, ih r hnext⟩
  | timer k ih => exact fun fired => ih fired (h fired)

theorem Follows.post {Q R : α → τ → Prop} (h : Follows M p Q t)
    (hpost : ∀ a t, Q a t → R a t) : Follows M p R t := by
  induction p generalizing t with
  | pure a => exact hpost a t h
  | call op k ih =>
    intro r
    obtain ⟨t', hmove, hnext⟩ := h r
    exact ⟨t', hmove, ih r hnext⟩
  | timer k ih => exact fun fired => ih fired (h fired)

/-- A call, and what follows it. -/
theorem follows_ask_bind {f : Res op → Prog Res β}
    {next : Res op → τ} (hmove : ∀ r, M t op r (next r)) (hf : ∀ r, Follows M (f r) Q (next r)) :
    Follows M (.ask op >>= f) Q t :=
  fun r => ⟨next r, hmove r, hf r⟩

/-- Calls that move nowhere. -/
theorem Only.follows {A : Op → Prop} (h : Only A p) (hstay : ∀ op, A op → ∀ r, M t op r t) :
    Follows M p (fun _ t' => t' = t) t := by
  induction p with
  | pure a => exact rfl
  | call op k ih => exact fun r => ⟨t, hstay op h.1 r, ih r (h.2 r)⟩
  | timer k ih => exact fun fired => ih fired (h fired)

/-- Every move of the protocol keeps it. -/
def Moved (H : Handler Res σ) (M : τ → (op : Op) → Res op → τ → Prop) (J : τ → σ → Prop) : Prop :=
  ∀ t op r t', M t op r t' → ∀ c s, J t s → (H.handle op c s).1 = r → J t' (H.handle op c s).2

/-- **What every move of the protocol keeps, the program keeps.** -/
theorem Follows.holds {Q : α → τ → Prop} {J : τ → σ → Prop} (h : Follows M p Q t)
    (hstop : ∀ t s, J t s → I s) (hmove : Moved H M J) (hs : J t s) :
    Holds H I p (fun a s' => ∃ t', Q a t' ∧ J t' s') s := by
  induction p generalizing t s with
  | pure a => exact ⟨t, h, hs⟩
  | call op k ih =>
    refine ⟨hstop t s hs, fun c => ?_⟩
    obtain ⟨t', hm, hnext⟩ := h (H.handle op c s).1
    exact ih _ hnext (hmove _ _ _ _ hm c s hs rfl)
  | timer k ih => exact ⟨hstop t s hs, fun fired => ih fired (h fired) hs⟩

end

/-! ## What it says of runs -/

theorem run_ask_bind (env : Env H) (n : ℕ) (op : Op) (f : Res op → Prog Res β) (s : σ) :
    run H env n (.ask op >>= f) s
      = run H env (n + 1) (f (H.handle op (env.choose n op) s).1)
          (H.handle op (env.choose n op) s).2 :=
  rfl

/-- A run ends with what was shown of returning. -/
theorem Holds.run (h : Holds H I p Q s) (env : Env H) (n : ℕ) :
    Q (run H env n p s).1 (run H env n p s).2 := by
  induction p generalizing s n with
  | pure a => exact h
  | call op k ih | timer k ih => exact ih _ (h.2 _) (n + 1)

/-- A run that is cut short ends with one or the other. -/
theorem Holds.stop (h : Holds H I p Q s) (env : Env H) (fuel n : ℕ) :
    match stop H env fuel n p s with
    | (some a, t) => Q a t
    | (none, t) => I t := by
  induction p generalizing s fuel n with
  | pure a => cases fuel <;> exact h
  | call op k ih | timer k ih =>
    cases fuel with
    | zero => exact h.1
    | succ fuel => exact ih _ (h.2 _) fuel (n + 1)

end BobbyBrowser.Calls
