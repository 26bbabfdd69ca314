/-
Newline-delimited byte streams.

A stream is read as its complete lines, each with its trailing newline, and an
unfinished tail that has none. Everything the ledgers of this development do to
a file is an append, so the lemmas that matter are the ones that say how the
split moves when bytes are added at the end: a stream with no tail is extended
line by line, and a stream with a tail has the new bytes glued to it.
-/
import Mathlib.Algebra.Order.BigOperators.Ring.Finset

set_option autoImplicit false

namespace BobbyBrowser.Lines

open List

/-- The contents of a file. -/
abbrev Bytes := List UInt8

/-- `b'\n'`. -/
abbrev newline : UInt8 := 10

/-- A complete line: no newline but its last byte. -/
def IsLine (l : Bytes) : Prop := ∃ body : Bytes, newline ∉ body ∧ l = body ++ [newline]

/-- The complete lines of a stream, in order, and what follows the last newline. -/
def split : Bytes → List Bytes × Bytes
  | [] => ([], [])
  | b :: bs =>
    if b = newline then ([b] :: (split bs).1, (split bs).2)
    else match (split bs).1 with
      | [] => ([], b :: (split bs).2)
      | l :: ls => ((b :: l) :: ls, (split bs).2)

/-- The complete lines of a stream. -/
abbrev lines (bs : Bytes) : List Bytes := (split bs).1

/-- The unfinished tail of a stream. -/
abbrev tail (bs : Bytes) : Bytes := (split bs).2

@[simp] theorem split_nil : split [] = ([], []) := rfl

variable (bs : Bytes)

theorem split_cons_newline : split (newline :: bs) = ([newline] :: lines bs, tail bs) := by
  rw [split, if_pos rfl]

theorem split_cons_nil {b : UInt8} {bs : Bytes} (hb : b ≠ newline) (h : lines bs = []) :
    split (b :: bs) = ([], b :: tail bs) := by
  rw [split, if_neg hb, show (split bs).1 = [] from h]

variable {ls : List Bytes}

theorem split_cons_cons {b : UInt8} {bs l : Bytes} (hb : b ≠ newline)
    (h : lines bs = l :: ls) : split (b :: bs) = ((b :: l) :: ls, tail bs) := by
  rw [split, if_neg hb, show (split bs).1 = l :: ls from h]

/-- Splitting loses nothing. -/
theorem join_split : (lines bs).flatten ++ tail bs = bs := by
  induction bs with
  | nil => rfl
  | cons b bs ih =>
    by_cases hb : b = newline
    · subst hb
      rw [lines, tail, split_cons_newline]
      simp only [flatten_cons, cons_append, nil_append, ih]
    rcases h : lines bs with _ | ⟨l, ls⟩
    · rw [lines, tail, split_cons_nil hb h]
      rw [h] at ih
      simpa using ih
    · rw [lines, tail, split_cons_cons hb h]
      rw [h] at ih
      simpa using ih

theorem newline_notMem_tail : newline ∉ tail bs := by
  induction bs with
  | nil => exact not_mem_nil
  | cons b bs ih =>
    by_cases hb : b = newline
    · subst hb
      rw [tail, split_cons_newline]
      exact ih
    rcases h : lines bs with _ | ⟨l, ls⟩
    · rw [tail, split_cons_nil hb h]
      exact fun hm => (mem_cons.mp hm).elim (Ne.symm hb) ih
    · rw [tail, split_cons_cons hb h]
      exact ih

/-- The lines of a text are lines: each ends in its only newline. -/
theorem isLine_of_mem : ∀ l ∈ lines bs, IsLine l := by
  induction bs with
  | nil => exact nofun
  | cons b bs ih =>
    by_cases hb : b = newline
    · subst hb
      rw [lines, split_cons_newline]
      intro l hl
      rcases mem_cons.mp hl with rfl | hl
      · exact ⟨[], by simp, rfl⟩
      · exact ih l hl
    rcases h : lines bs with _ | ⟨m, ms⟩
    · rw [lines, split_cons_nil hb h]
      simp
    · rw [lines, split_cons_cons hb h]
      rw [h] at ih
      intro l hl
      rcases mem_cons.mp hl with rfl | hl
      · obtain ⟨body, hbody, rfl⟩ := ih m mem_cons_self
        exact ⟨b :: body, fun hm => (mem_cons.mp hm).elim (Ne.symm hb) hbody, rfl⟩
      · exact ih l (mem_cons_of_mem _ hl)

/-- Every line holds at least its newline. -/
theorem length_lines_le : (lines bs).length ≤ bs.length := by
  induction bs with
  | nil => exact Nat.le_refl 0
  | cons b bs ih =>
    by_cases hb : b = newline
    · subst hb
      rw [lines, split_cons_newline]
      simp only [length_cons]
      omega
    · rcases h : lines bs with _ | ⟨l, ls⟩
      · rw [lines, split_cons_nil hb h]
        simp
      · rw [lines, split_cons_cons hb h]
        rw [h] at ih
        simp only [length_cons] at ih ⊢
        omega

/-- A stream with no newline is all tail. -/
theorem split_of_notMem {t : Bytes} (ht : newline ∉ t) : split t = ([], t) := by
  induction t with
  | nil => rfl
  | cons b t ih =>
    simp only [mem_cons, not_or] at ht
    have h := ih ht.2
    rw [split_cons_nil (Ne.symm ht.1) (by rw [lines, h]), tail, h]

variable {body : Bytes}

/-- The first line comes off whole. -/
theorem split_line_append (hbody : newline ∉ body) (g : Bytes) :
    split (body ++ newline :: g) = ((body ++ [newline]) :: lines g, tail g) := by
  induction body with
  | nil => exact split_cons_newline g
  | cons b body ih =>
    simp only [mem_cons, not_or] at hbody
    have h := ih hbody.2
    rw [cons_append, split_cons_cons (Ne.symm hbody.1) (by rw [lines, h]), tail, h]
    rfl

/-- **Appending to a stream.** The complete lines of `f` stay, and the rest is
the split of `f`'s tail with `g` glued to it. -/
theorem split_append (f g : Bytes) :
    split (f ++ g) = (lines f ++ lines (tail f ++ g), tail (tail f ++ g)) := by
  induction f with
  | nil => rfl
  | cons b f ih =>
    by_cases hb : b = newline
    · subst hb
      have hl : lines (f ++ g) = lines f ++ lines (tail f ++ g) := congrArg Prod.fst ih
      have ht : tail (f ++ g) = tail (tail f ++ g) := by rw [tail, ih]
      rw [cons_append, split_cons_newline, hl, ht]
      simp only [lines, tail, split_cons_newline, cons_append]
    have hl : lines (f ++ g) = lines f ++ lines (tail f ++ g) := congrArg Prod.fst ih
    have ht : tail (f ++ g) = tail (tail f ++ g) := by rw [tail, ih]
    rcases h : lines f with _ | ⟨l, ls⟩
    · -- no newline in `f` yet, so the whole of `b :: f` is tail
      have hf : tail f = f := by
        have hj := join_split f
        rw [h] at hj
        simpa using hj
      simp only [lines, tail, split_cons_nil hb h, nil_append, cons_append]
      rw [show (split f).2 = f from hf]
    · rw [h] at hl
      rw [cons_append] at hl
      rw [cons_append, split_cons_cons hb hl, ht]
      simp only [lines, tail, split_cons_cons hb h, cons_append]

/-- A stream that ends at a newline is extended by the lines of what is appended. -/
theorem split_append_of_tail_nil {f : Bytes} (hf : tail f = []) (g : Bytes) :
    split (f ++ g) = (lines f ++ lines g, tail g) := by
  rw [split_append, hf]
  rfl

/-- Appending one complete line to a stream that ends at a newline. -/
theorem split_append_line {f body : Bytes} (hf : tail f = []) (hbody : newline ∉ body) :
    split (f ++ (body ++ [newline])) = (lines f ++ [body ++ [newline]], []) := by
  rw [split_append_of_tail_nil hf]
  simp only [lines, tail, split_line_append hbody, split_nil]

/-- Appending one complete line to a stream with a tail glues the two. -/
theorem split_append_glued (f : Bytes) (hbody : newline ∉ body) :
    split (f ++ (body ++ [newline])) = (lines f ++ [(tail f ++ body) ++ [newline]], []) := by
  have hglue : newline ∉ tail f ++ body := by
    simp only [mem_append, not_or]
    exact ⟨newline_notMem_tail f, hbody⟩
  rw [split_append, ← append_assoc]
  simp only [lines, tail, split_line_append hglue, split_nil]

/-- Appending bytes with no newline only moves the tail. -/
theorem split_append_torn (f : Bytes) {t : Bytes} (ht : newline ∉ t) :
    split (f ++ t) = (lines f, tail f ++ t) := by
  have hglue : newline ∉ tail f ++ t := by
    simp only [mem_append, not_or]
    exact ⟨newline_notMem_tail f, ht⟩
  rw [split_append]
  simp only [lines, tail, split_of_notMem hglue, append_nil]

section

variable (hls : ∀ l ∈ ls, IsLine l)

include hls

/-- A list of complete lines is split back into itself. -/
theorem split_flatten (t : Bytes) :
    split (ls.flatten ++ t) = (ls ++ lines t, tail t) := by
  induction ls with
  | nil => rfl
  | cons l ls ih =>
    obtain ⟨body, hbody, rfl⟩ := hls l mem_cons_self
    have h := ih fun m hm => hls m (mem_cons_of_mem _ hm)
    simp only [flatten_cons, append_assoc, cons_append, nil_append]
    rw [split_line_append hbody, lines, tail, h]

/-- A stream made of lines splits into them. -/
theorem split_lines : split ls.flatten = (ls, []) := by
  have h := split_flatten hls []
  rwa [append_nil, lines, split_nil, append_nil] at h

theorem lines_flatten : lines ls.flatten = ls :=
  congrArg Prod.fst (split_lines hls)

end

/-! ## Prefixes of a line

An interrupted write leaves the first `k` bytes of a line on disk. -/

/-- The first `k` bytes of a line, for `k` short of the whole, hold no newline. -/
theorem newline_notMem_take (hbody : newline ∉ body) {k : ℕ}
    (hk : k ≤ body.length) : newline ∉ (body ++ [newline]).take k := by
  rw [take_append_of_le_length hk]
  exact fun h => hbody (mem_of_mem_take h)

theorem take_line_of_length_lt {k : ℕ} (hk : body.length < k) :
    (body ++ [newline]).take k = body ++ [newline] := by
  apply take_of_length_le
  simp only [length_append, length_singleton]
  omega

end BobbyBrowser.Lines
