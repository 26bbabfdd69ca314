/-
Programs with a state of their own that may fail.

A task is a program of `Calls` that is given a local state and returns a result or
an error together with the local state it leaves; the state outlives an error.
`Meets` is the precondition rule of `Calls` for it, with the result, the local
state and the state of the calls in its postcondition.
-/
import BobbyBrowser.Calls

set_option autoImplicit false

namespace BobbyBrowser.Calls

variable {Op : Type} {Res : Op → Type} {ρ ε ε' α β σ : Type}

/-- A program with the local state `ρ` that returns `α` or fails with `ε`. -/
def Task (Res : Op → Type) (ρ ε α : Type) : Type := ρ → Prog Res (Except ε α × ρ)

namespace Task

/-- What follows a task that has returned. -/
def bind (p : Task Res ρ ε α) (f : α → Task Res ρ ε β) : Task Res ρ ε β := fun r =>
  (p r).bind fun
    | (.ok a, r) => f a r
    | (.error e, r) => .pure (.error e, r)

instance : Monad (Task Res ρ ε) where
  pure a := fun r => .pure (.ok a, r)
  bind := Task.bind

/-- Fail. -/
def throw (e : ε) : Task Res ρ ε α := fun r => .pure (.error e, r)

/-- The local state. -/
def get : Task Res ρ ε ρ := fun r => .pure (.ok r, r)

/-- Replace the local state. -/
def set (r : ρ) : Task Res ρ ε Unit := fun _ => .pure (.ok (), r)

/-- A program that has no part in the local state. -/
def lift (p : Prog Res α) : Task Res ρ ε α := fun r => p.bind fun a => .pure (.ok a, r)

/-- Make one call. -/
def call (op : Op) : Task Res ρ ε (Res op) := lift (.ask op)

/-- Look whether a timer has fired. -/
def expired : Task Res ρ ε Bool := fun r => .timer fun fired => .pure (.ok fired, r)

/-- A result that may be an error. -/
def of_except (translate : ε' → ε) : Except ε' α → Task Res ρ ε α
  | .ok a => pure a
  | .error e => throw (translate e)

/-- An error is returned instead of being raised. -/
def attempt (p : Task Res ρ ε α) : Task Res ρ ε (Except ε α) := fun r =>
  (p r).bind fun out => .pure (.ok out.1, out.2)

/-- `tokio::time::timeout` of a task that leaves the local state as it is. -/
def within (p : Task Res ρ ε α) : Task Res ρ ε (Option α) := fun r =>
  (p r).within.bind fun
    | none => .pure (.ok none, r)
    | some (.ok a, r) => .pure (.ok (some a), r)
    | some (.error e, r) => .pure (.error e, r)

/-- From the local state and the state, the task returns only with `Q` and stops before that only
with `I`. -/
def Meets (H : Handler Res σ) (I : σ → Prop) (p : Task Res ρ ε α)
    (Q : Except ε α → ρ → σ → Prop) (r : ρ) (s : σ) : Prop :=
  Holds H I (p r) (fun out t => Q out.1 out.2 t) s

variable {H : Handler Res σ} {I : σ → Prop} {Q R : Except ε α → ρ → σ → Prop} {r : ρ} {s : σ}

/-! ## The rules -/

variable {p : Task Res ρ ε α}

theorem Meets.post (h : Meets H I p Q r s)
    (hpost : ∀ out r t, Q out r t → R out r t) : Meets H I p R r s :=
  Holds.post h fun out t hq => hpost out.1 out.2 t hq

theorem Meets.mono {J : σ → Prop} (h : Meets H I p Q r s)
    (hstop : ∀ t, I t → J t) (hpost : ∀ out r t, Q out r t → R out r t) : Meets H J p R r s :=
  Holds.mono h hstop fun out t hq => hpost out.1 out.2 t hq

variable {f : α → Task Res ρ ε β} {R : Except ε β → ρ → σ → Prop}

/-- **Sequencing.** -/
theorem Meets.bind (h : Meets H I p Q r s) (hok : ∀ a r t, Q (.ok a) r t → Meets H I (f a) R r t)
    (herror : ∀ e r t, Q (.error e) r t → R (.error e) r t) : Meets H I (p >>= f) R r s := by
  apply holds_bind (p := p r)
  refine Holds.post h ?_
  rintro ⟨out, r'⟩ t hq
  cases out with
  | ok a => exact hok a r' t hq
  | error e => exact herror e r' t hq

/-- A program without a part in the local state. -/
theorem meets_lift {p : Prog Res α} (h : Holds H I p (fun a t => Q (.ok a) r t) s) :
    Meets H I (lift p) Q r s :=
  holds_bind (p := p) h

/-- A raised error, looked at. -/
theorem Meets.attempt {R : Except ε (Except ε α) → ρ → σ → Prop}
    (h : Meets H I p Q r s) (hpost : ∀ out r t, Q out r t → R (.ok out) r t) :
    Meets H I p.attempt R r s :=
  holds_bind (p := p r) (Holds.post h fun out t hq => hpost out.1 out.2 t hq)

/-- **Timeouts** of tasks. -/
theorem Meets.within {R : Except ε (Option α) → ρ → σ → Prop} (h : Meets H I p Q r s) (hstop : I s)
    (hpost : ∀ out r t, Q out r t → I t) (hok : ∀ a r t, Q (.ok a) r t → R (.ok (some a)) r t)
    (herror : ∀ e r t, Q (.error e) r t → R (.error e) r t) (hnone : ∀ t, I t → R (.ok none) r t) :
    Meets H I p.within R r s := by
  apply holds_bind (p := (p r).within)
  refine (holds_within hstop h fun out t hq => hpost out.1 out.2 t hq).post ?_
  rintro (_ | ⟨out, r'⟩) t hq
  · exact hnone t hq
  · cases out with
    | ok a => exact hok a r' t hq
    | error e => exact herror e r' t hq

/-! ## Tasks that keep a condition -/

/-- From the state the task keeps `I` wherever it stops or ends, and what it returns is `Q`. -/
def Keeps (H : Handler Res σ) (I : σ → Prop) (p : Task Res ρ ε α) (Q : α → σ → Prop) (s : σ) : Prop :=
  ∀ r, Meets H I p (fun out _ t => I t ∧ ∀ a, out = .ok a → Q a t) r s

section

variable {Q : α → σ → Prop} {P : β → σ → Prop}

theorem keeps_pure {a : α} (hs : I s) (h : Q a s) : Keeps H I (pure a : Task Res ρ ε α) Q s := by
  refine fun r => ⟨hs, ?_⟩
  intro a' ha
  cases ha
  exact h

theorem keeps_throw {e : ε} (hs : I s) : Keeps H I (throw e : Task Res ρ ε α) Q s :=
  fun _ => ⟨hs, nofun⟩

theorem Keeps.bind (hp : Keeps H I p Q s) (hf : ∀ a t, I t → Q a t → Keeps H I (f a) P t) :
    Keeps H I (p >>= f) P s := by
  refine fun r => (hp r).bind ?_ ?_
  · rintro a r' t ⟨ht, hq⟩
    exact hf a t ht (hq a rfl) r'
  · rintro e r' t ⟨ht, -⟩
    exact ⟨ht, nofun⟩

theorem Keeps.attempt (hp : Keeps H I p Q s) :
    Keeps H I p.attempt (fun out t => ∀ a, out = .ok a → Q a t) s := by
  refine fun r => (hp r).attempt ?_
  rintro out r' t ⟨ht, hq⟩
  refine ⟨ht, ?_⟩
  intro out' hout
  cases hout
  exact hq

theorem Keeps.within (hp : Keeps H I p Q s) (hs : I s) :
    Keeps H I p.within (fun out t => ∀ a, out = some a → Q a t) s := by
  refine fun r => (hp r).within hs (fun _ _ _ h => h.1) ?_ ?_ ?_
  · rintro a r' t ⟨ht, hq⟩
    refine ⟨ht, ?_⟩
    rintro out hout b rfl
    exact hq b (by rw [Option.some.inj (Except.ok.inj hout)])
  · rintro e r' t ⟨ht, -⟩
    exact ⟨ht, nofun⟩
  · intro t ht
    refine ⟨ht, ?_⟩
    rintro out hout b rfl
    nomatch Except.ok.inj hout

theorem keeps_lift {p : Prog Res α} (h : Holds H I p (fun a t => I t ∧ Q a t) s) :
    Keeps H I (lift p : Task Res ρ ε α) Q s := by
  refine fun r => meets_lift (h.post ?_)
  rintro a t ⟨ht, hq⟩
  refine ⟨ht, ?_⟩
  intro a' ha
  cases ha
  exact hq

end

/-! ## Runs of tasks -/

section

variable (env : Env H) (n : ℕ) (r : ρ) (s : σ)

theorem run_call_bind (op : Op) (f : Res op → Task Res ρ ε β) :
    run H env n ((call op >>= f) r) s
      = run H env (n + 1) (f (H.handle op (env.choose n op) s).1 r)
          (H.handle op (env.choose n op) s).2 :=
  rfl

theorem run_ok_bind (translate : ε' → ε) (a : α) :
    run H env n ((of_except translate (.ok a) >>= f) r) s = run H env n (f a r) s :=
  rfl

theorem run_get_bind (f : ρ → Task Res ρ ε β) :
    run H env n ((get >>= f) r) s = run H env n (f r r) s :=
  rfl

end

end Task

end BobbyBrowser.Calls
