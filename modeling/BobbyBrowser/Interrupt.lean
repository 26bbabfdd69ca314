/-
Programs that may be cut short.

A program works on a state and either returns or is interrupted, in which case
it leaves something behind that is all there is to start from again. `Triple` is
partial in neither way: it says what holds when the program returns and what
holds of the remains when it does not.
-/
import Mathlib.Logic.Basic

set_option autoImplicit false

namespace BobbyBrowser.Interrupt

variable {σ ε α β : Type}

/-- Programs on the state `σ` that leave an `ε` behind when they are interrupted. -/
abbrev Prog (σ ε α : Type) := StateT σ (Except ε) α

/-- From a state that meets `P` the program returns with `Q`, or is interrupted and leaves `E`. -/
def Triple (P : σ → Prop) (p : Prog σ ε α) (Q : α → σ → Prop) (E : ε → Prop) : Prop :=
  ∀ s, P s → match p s with
    | .ok (a, t) => Q a t
    | .error e => E e

variable {P P' : σ → Prop} {Q Q' : α → σ → Prop} {E : ε → Prop}

theorem Triple.pure (a : α) (h : ∀ s, P s → Q a s) : Triple P (pure a : Prog σ ε α) Q E := h

theorem Triple.keep {a : α} : Triple P (Pure.pure a : Prog σ ε α) (fun _ => P) E := fun _ h => h

/-- Returning from a state that is known. -/
theorem Triple.stay {a : α} {s : σ} (h : Q a s) : Triple (· = s) (Pure.pure a : Prog σ ε α) Q E :=
  fun _ hs => hs ▸ h

variable {p : Prog σ ε α} {R : β → σ → Prop}

/-- **Sequencing.** -/
theorem Triple.bind {f : α → Prog σ ε β}
    (hp : Triple P p Q E) (hf : ∀ a, Triple (Q a) (f a) R E) : Triple P (p >>= f) R E := by
  intro s hs
  have hfirst := hp s hs
  change match (p s >>= fun r => f r.1 r.2 : Except ε (β × σ)) with
    | .ok (b, t) => R b t
    | .error e => E e
  rcases hr : p s with e | ⟨a, t⟩
  · rw [hr] at hfirst
    exact hfirst
  · rw [hr] at hfirst
    exact hf a t hfirst

theorem Triple.mono (h : Triple P p Q E) (hpre : ∀ s, P' s → P s)
    (hpost : ∀ a s, Q a s → Q' a s) : Triple P' p Q' E := by
  intro s hs
  have hrun := h s (hpre s hs)
  rcases hr : p s with e | ⟨a, t⟩
  · rw [hr] at hrun
    exact hrun
  · rw [hr] at hrun
    exact hpost a t hrun

theorem Triple.pre (h : Triple P p Q E) (hpre : ∀ s, P' s → P s) : Triple P' p Q E :=
  h.mono hpre fun _ _ hq => hq

/-- Reading the state: the rest may use what is known of it. -/
theorem Triple.get_bind {f : σ → Prog σ ε β}
    (h : ∀ s, P s → Triple (· = s) (f s) R E) : Triple P (get >>= f) R E :=
  fun s hs => h s hs s rfl

variable {f : σ → σ} {g : PUnit → Prog σ ε β} {s : σ}

theorem Triple.modify_bind (P' : σ → Prop) (h : ∀ s, P s → P' (f s))
    (hg : Triple P' (g PUnit.unit) R E) : Triple P (modify f >>= g) R E :=
  Triple.bind (Q := fun _ => P') h fun _ => hg

/-- Changing a state that is known. -/
theorem Triple.set_bind (hg : Triple (· = f s) (g PUnit.unit) R E) :
    Triple (· = s) (modify f >>= g) R E :=
  Triple.modify_bind (· = f s) (fun _ hs => hs ▸ rfl) hg

theorem Triple.change_bind (h : P' (f s)) (hg : Triple P' (g PUnit.unit) R E) :
    Triple (· = s) (modify f >>= g) R E :=
  Triple.set_bind (hg.pre fun _ hs => hs ▸ h)

theorem Triple.modify (f : σ → σ) {R : PUnit → σ → Prop} (h : ∀ s, P s → R PUnit.unit (f s)) :
    Triple P (modify f : Prog σ ε PUnit) R E := h

end BobbyBrowser.Interrupt
