/-
Replacing every occurrence of a word by a marker.

`replace` scans a list from the left and puts the marker where the word starts,
without overlaps. The question a redaction asks is whether the word is gone from
the result. It need not be: the marker may contain the word, or contribute a
beginning or an end of it. `Apart` rules those out, and nothing else is left:
what is between two markers holds no occurrence, because the scan would have
found it.
-/
import Mathlib.Data.List.Infix

set_option autoImplicit false

namespace BobbyBrowser.Replace

open List

variable {α : Type*}

/-- A prefix of `a ++ b` ends in `a`, or is `a` and a prefix of `b`. -/
theorem prefix_append_cases {w a b : List α} (h : w <+: a ++ b) :
    w <+: a ∨ ∃ v, w = a ++ v ∧ v <+: b := by
  rcases prefix_or_prefix_of_prefix h (prefix_append a b) with hw | ⟨v, rfl⟩
  · exact .inl hw
  · exact .inr ⟨v, rfl, (prefix_append_right_inj a).mp h⟩

/-- An occurrence in `a ++ b` lies in one of the two, or crosses from one to the other. -/
theorem infix_append_cases {w a b : List α} (h : w <:+: a ++ b) :
    w <:+: a ∨ w <:+: b ∨ ∃ u v, w = u ++ v ∧ u ≠ [] ∧ v ≠ [] ∧ u <:+ a ∧ v <+: b := by
  induction a with
  | nil => exact .inr (.inl h)
  | cons c a ih =>
    rw [cons_append, infix_cons_iff] at h
    rcases h with hfront | hinside
    · -- The occurrence starts at the front: it ends in `c :: a`, or goes on into `b`.
      rw [← cons_append] at hfront
      rcases prefix_append_cases hfront with hle | ⟨v, rfl, hv⟩
      · exact .inl hle.isInfix
      · rcases v with _ | ⟨d, v⟩
        · exact .inl (by simp)
        · exact .inr (.inr ⟨c :: a, d :: v, rfl, by simp, by simp, suffix_refl _, hv⟩)
    · rcases ih hinside with ha | hb | ⟨u, v, rfl, hu, hv, hback, hfront⟩
      · exact .inl (infix_cons ha)
      · exact .inr (.inl hb)
      · exact .inr (.inr ⟨u, v, rfl, hu, hv, hback.trans (suffix_cons c a), hfront⟩)

/-- The word neither occurs in the marker nor contains it, and neither goes on into the other. -/
def Apart (word marker : List α) : Prop :=
  ¬ word <:+: marker ∧ ¬ marker <:+: word
    ∧ (∀ u ∈ marker.tails, u ≠ [] → ¬ u <+: word) ∧ ∀ u ∈ marker.inits, u ≠ [] → ¬ u <:+ word

/-- A word that is apart from the marker cannot begin in front of a marker and reach into it. -/
theorem Apart.prefix_of_prefix_append {word marker s rest : List α} (h : Apart word marker)
    (hfront : word <+: s ++ (marker ++ rest)) : word <+: s := by
  rcases prefix_append_cases hfront with hs | ⟨v, rfl, hv⟩
  · exact hs
  rcases v with _ | ⟨b, v⟩
  · simp
  · exfalso
    rcases prefix_append_cases hv with hmarker | ⟨u, hu, -⟩
    · exact h.2.2.2 (b :: v) (mem_inits _ _ |>.mpr hmarker) (by simp) ⟨s, rfl⟩
    · exact h.2.1 ⟨s, u, by rw [hu, append_assoc]⟩

variable [DecidableEq α]

/-- The scan; `skip` elements of an occurrence are still to be passed over. -/
def scan (word marker : List α) : ℕ → List α → List α
  | _, [] => []
  | skip + 1, _ :: l => scan word marker skip l
  | 0, a :: l =>
    if word.isPrefixOf (a :: l) then marker ++ scan word marker (word.length - 1) l
    else a :: scan word marker 0 l

/-- The list with every occurrence of the word, from the left, replaced by the marker. -/
def replace (word marker l : List α) : List α := scan word marker 0 l

instance (word marker : List α) : Decidable (Apart word marker) :=
  inferInstanceAs (Decidable (_ ∧ _))

section Apart

variable {word marker : List α}

/-- A scan copies its list up to the first occurrence and goes on with the marker. -/
theorem scan_zero_eq (word marker l : List α) :
    scan word marker 0 l = l
      ∨ ∃ s rest, s <+: l ∧ scan word marker 0 l = s ++ (marker ++ rest) := by
  induction l with
  | nil => exact .inl rfl
  | cons a l ih =>
    rw [scan]
    split
    · exact .inr ⟨[], _, nil_prefix, rfl⟩
    · rcases ih with heq | ⟨s, rest, hs, heq⟩
      · exact .inl (by rw [heq])
      · exact .inr ⟨a :: s, rest, cons_prefix_cons.mpr ⟨rfl, hs⟩, by rw [heq]; rfl⟩

/-- **The word is gone**, when it is apart from the marker. -/
theorem Apart.not_infix_scan (h : Apart word marker) (skip : ℕ) (l : List α) :
    ¬ word <:+: scan word marker skip l := by
  have hne : word ≠ [] := by
    rintro rfl
    exact h.1 nil_infix
  induction l generalizing skip with
  | nil =>
    rw [scan, infix_nil]
    exact hne
  | cons a l ih =>
    cases skip with
    | succ skip =>
      rw [scan]
      exact ih skip
    | zero =>
      rw [scan]
      split
      · intro hinside
        rcases infix_append_cases hinside with hmarker | hrest | ⟨u, v, rfl, hu, -, hback, -⟩
        · exact h.1 hmarker
        · exact ih _ hrest
        · exact h.2.2.1 u ((mem_tails _ _).mpr hback) hu (prefix_append u v)
      rename_i hnot
      rw [infix_cons_iff]
      rintro (hfront | hinside)
      · -- What follows agrees with the list up to the next marker.
        rcases scan_zero_eq word marker l with heq | ⟨s, rest, hs, heq⟩
        · rw [heq, ← isPrefixOf_iff_prefix] at hfront
          exact hnot hfront
        · rw [heq, ← cons_append] at hfront
          have hshort := h.prefix_of_prefix_append hfront
          exact hnot (List.isPrefixOf_iff_prefix.mpr
            (hshort.trans (cons_prefix_cons.mpr ⟨rfl, hs⟩)))
      · exact ih 0 hinside

theorem Apart.not_infix_replace (h : Apart word marker) (l : List α) :
    ¬ word <:+: replace word marker l :=
  h.not_infix_scan 0 l

end Apart

end BobbyBrowser.Replace
