/-
A channel that keeps its latest value.

A send replaces the value and raises the version; a receiver remembers the version it
has seen, and is told that there is a change when the two differ. What was sent and
replaced before a receiver looks is lost to it.
-/
import Mathlib.Data.Nat.Notation

set_option autoImplicit false

namespace BobbyBrowser.Watch

variable {α : Type}

/-- The sending half. -/
structure Channel (α : Type) where
  value : α
  version : ℕ := 0

/-- The version a new receiver has seen: what was sent before is not new to it. -/
def Channel.subscribe (channel : Channel α) : ℕ := channel.version

/-- A send, which is refused when nobody listens. -/
def Channel.send (channel : Channel α) (listened : Bool) (value : α) : Channel α :=
  if listened then ⟨value, channel.version + 1⟩ else channel

/-- There is a change for a receiver. -/
def Channel.has_changed (channel : Channel α) (seen : ℕ) : Bool := seen ≠ channel.version

variable {channel : Channel α} {value : α} {seen : ℕ}

/-- A send is news to every receiver, whatever else was. -/
theorem has_changed_send (h : seen ≤ channel.version) :
    (channel.send true value).has_changed seen = true ∧ (channel.send true value).value = value := by
  refine ⟨?_, rfl⟩
  simp only [Channel.send, Channel.has_changed, if_true, decide_eq_true_eq]
  omega

theorem version_le_send (channel : Channel α) (listened : Bool) (value : α) :
    channel.version ≤ (channel.send listened value).version := by
  unfold Channel.send
  split
  · exact Nat.le_succ _
  · exact Nat.le_refl _

end BobbyBrowser.Watch
