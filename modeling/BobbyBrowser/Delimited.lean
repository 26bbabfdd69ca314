/-
Texts that can be read back from the front.

A text that a longer one begins with is found again when it marks its own end,
or when what may follow it marks the end for it. `ReadsAt` says this of one
value, given which bytes may come next, so that it can be proved of a tree by
induction; the two lemmas carry it over to a run of texts behind which a closing
byte stands, and to such a run between brackets with a separator before each text
but the first.
-/
import BobbyBrowser.Lines

set_option autoImplicit false

namespace BobbyBrowser.Delimited

open Lines List

variable {α : Type*} {stops : UInt8 → Prop} {text : α → Bytes} {a : α} {as bs : List α}
  {x rest rest' : Bytes} {b opening comma close : UInt8}

/-- Nothing comes next, or a byte that marks the end of what stands before it. -/
def Ends (stops : UInt8 → Prop) (rest : Bytes) : Prop := ∀ b ∈ rest.head?, stops b

theorem ends_cons : Ends stops (b :: rest) ↔ stops b := by
  simp [Ends]

/-- The text of `a` is no other's, whatever follows it, and what follows is found again. -/
def ReadsAt (stops : UInt8 → Prop) (text : α → Bytes) (a : α) : Prop :=
  ∀ b rest rest', Ends stops rest → Ends stops rest' →
    text a ++ rest = text b ++ rest' → a = b ∧ rest = rest'

/-- A text of bytes that mark no end is what stands before the first that does. -/
theorem takeWhile_append_of_ends {p : UInt8 → Bool} (hx : ∀ b ∈ x, p b = true)
    (h : Ends (fun b => p b = false) rest) : (x ++ rest).takeWhile p = x := by
  rw [takeWhile_append_of_pos hx]
  cases rest with
  | nil => rw [takeWhile_nil, append_nil]
  | cons b rest =>
    rw [takeWhile_cons_of_neg (Bool.not_eq_true _ ▸ ends_cons.mp h), append_nil]

section

variable (hopen : ∀ a, ∃ b x, text a = b :: x ∧ b ≠ close ∧ stops b) (hclose : stops close)

include hopen hclose

theorem flatMap_ends : Ends stops (as.flatMap text ++ close :: rest) := by
  cases as with
  | nil => exact ends_cons.mpr hclose
  | cons a as =>
    obtain ⟨b, x, hx, -, hb⟩ := hopen a
    rw [flatMap_cons, hx]
    exact ends_cons.mpr hb

/-- Texts in a row with a closing byte behind them that none of them begins with. -/
theorem flatMap_reads (h : ∀ a ∈ as, ReadsAt stops text a)
    (heq : as.flatMap text ++ close :: rest = bs.flatMap text ++ close :: rest') :
    as = bs ∧ rest = rest' := by
  induction as generalizing bs with
  | nil =>
    cases bs with
    | nil => exact ⟨rfl, tail_eq_of_cons_eq heq⟩
    | cons b bs =>
      obtain ⟨c, x, hx, hne, -⟩ := hopen b
      rw [flatMap_cons, hx] at heq
      exact absurd (head_eq_of_cons_eq heq).symm hne
  | cons a as ih =>
    cases bs with
    | nil =>
      obtain ⟨c, x, hx, hne, -⟩ := hopen a
      rw [flatMap_cons, hx] at heq
      exact absurd (head_eq_of_cons_eq heq) hne
    | cons b bs =>
      rw [flatMap_cons, flatMap_cons, append_assoc, append_assoc] at heq
      obtain ⟨rfl, htail⟩ := h a mem_cons_self b _ _ (flatMap_ends hopen hclose)
        (flatMap_ends hopen hclose) heq
      obtain ⟨rfl, hrest⟩ := ih (fun c hc => h c (mem_cons_of_mem a hc)) htail
      exact ⟨rfl, hrest⟩

end

/-- Texts between brackets, with a separator before each but the first. -/
def listing (opening comma close : UInt8) : List Bytes → Bytes
  | [] => [opening, close]
  | first :: rest => opening :: first ++ rest.flatMap (comma :: ·) ++ [close]

/-- **The text of a listing determines its elements**, if each element's does and none begins with
the closing byte. By induction on the elements. -/
theorem listing_reads (hne : comma ≠ close) (hcomma : stops comma) (hclose : stops close)
    (hopen : ∀ a, ∃ b x, text a = b :: x ∧ b ≠ close) (h : ∀ a ∈ as, ReadsAt stops text a)
    (heq : listing opening comma close (as.map text) ++ rest =
      listing opening comma close (bs.map text) ++ rest') : as = bs ∧ rest = rest' := by
  have hrun : ∀ a, ∃ b x, comma :: text a = b :: x ∧ b ≠ close ∧ stops b :=
    fun a => ⟨comma, text a, rfl, hne, hcomma⟩
  cases as with
  | nil =>
    cases bs with
    | nil => exact ⟨rfl, by simpa [listing] using heq⟩
    | cons b bs =>
      obtain ⟨c, x, hx, hc⟩ := hopen b
      simp [listing, hx, hc.symm] at heq
  | cons a as =>
    cases bs with
    | nil =>
      obtain ⟨c, x, hx, hc⟩ := hopen a
      simp [listing, hx, hc] at heq
    | cons b bs =>
      simp only [listing, map_cons, flatMap_map, cons_append, append_assoc,
        cons.injEq, true_and, nil_append] at heq
      obtain ⟨rfl, htail⟩ := h a mem_cons_self b _ _ (flatMap_ends hrun hclose)
        (flatMap_ends hrun hclose) heq
      have hreads : ∀ c ∈ as, ReadsAt stops (fun a => comma :: text a) c := by
        intro c hc d rest rest' hrest hrest' heq
        exact h c (mem_cons_of_mem a hc) d rest rest' hrest hrest'
          (tail_eq_of_cons_eq heq)
      obtain ⟨rfl, hrest⟩ := flatMap_reads hrun hclose hreads htail
      exact ⟨rfl, hrest⟩

end BobbyBrowser.Delimited
