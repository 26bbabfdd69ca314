/-
A text format for records.

A `Wire` writes a value as bytes and reads it back from the front of a longer
text. The constructions below cover numbers, pairs, lists and everything that
embeds in them. What they write is plain: no byte of it ends a line or frames a
record, so a framed value is one line of a line-delimited file, and two texts
run together are never read as one record.

Developments that take a text format as a parameter, with laws, use this one to
show that the laws can be met.
-/
import BobbyBrowser.Lines

set_option autoImplicit false

namespace BobbyBrowser

open Lines List

/-- The byte that opens a record. -/
abbrev open_brace : UInt8 := 0x7b

/-- The byte that closes a record. -/
abbrev close_brace : UInt8 := 0x7d

/-- A byte that neither ends a line nor frames a record. -/
def Plain (b : UInt8) : Prop := b ≠ newline ∧ b ≠ open_brace ∧ b ≠ close_brace

instance (b : UInt8) : Decidable (Plain b) := inferInstanceAs (Decidable (_ ∧ _))

/-- A way to write values as plain bytes and to read them back from the front of a text. -/
structure Wire (α : Type) where
  put : α → Bytes
  get : Bytes → Option (α × Bytes)
  get_put : ∀ a rest, get (put a ++ rest) = some (a, rest)
  plain : ∀ a, ∀ b ∈ put a, Plain b

namespace Wire

variable {α β : Type} {fuel n : ℕ}

/-! ## Numbers -/

/-- The byte that ends a number. -/
abbrev stop : UInt8 := 0x2e

/-- The digits of a number in base 16, least first, as the letters from `a` on. -/
def digits : ℕ → ℕ → Bytes
  | 0, _ => []
  | fuel + 1, n => if n = 0 then [] else UInt8.ofNat (97 + n % 16) :: digits fuel (n / 16)

/-- Reading digits up to the byte that ends the number. -/
def read_digits : Bytes → Option (ℕ × Bytes)
  | [] => none
  | b :: bs =>
    if b = stop then some (0, bs)
    else match read_digits bs with
      | none => none
      | some (n, rest) => some (b.toNat - 97 + 16 * n, rest)

theorem toNat_digit (n : ℕ) : (UInt8.ofNat (97 + n % 16)).toNat = 97 + n % 16 := by
  rw [UInt8.toNat_ofNat']
  omega

theorem digit_ne (n : ℕ) {b : UInt8} (hb : b.toNat < 97 ∨ 112 < b.toNat) :
    UInt8.ofNat (97 + n % 16) ≠ b := by
  intro h
  have := toNat_digit n
  rw [h] at this
  omega

theorem read_digits_digits (h : n ≤ fuel) (rest : Bytes) :
    read_digits (digits fuel n ++ stop :: rest) = some (n, rest) := by
  induction fuel generalizing n with
  | zero =>
    obtain rfl : n = 0 := by omega
    simp [digits, read_digits]
  | succ fuel ih =>
    rw [digits]
    split
    · subst n
      simp [read_digits]
    · rw [cons_append, read_digits, if_neg (digit_ne n (by decide)), ih (by omega)]
      simp only [toNat_digit]
      congr 2
      omega

theorem digits_plain : ∀ b ∈ digits fuel n, Plain b := by
  induction fuel generalizing n with
  | zero => simp [digits]
  | succ fuel ih =>
    rw [digits]
    split
    · simp
    · rintro b (_ | ⟨_, hb⟩)
      · exact ⟨digit_ne n (by decide), digit_ne n (by decide), digit_ne n (by decide)⟩
      · exact ih b hb

theorem length_digits_le : (digits fuel n).length ≤ fuel := by
  induction fuel generalizing n with
  | zero => simp [digits]
  | succ fuel ih =>
    rw [digits]
    split
    · simp
    · rw [length_cons]
      exact Nat.succ_le_succ ih

theorem length_digits_le_of_lt {k : ℕ} (h : n < 16 ^ k) : (digits fuel n).length ≤ k := by
  induction fuel generalizing n k with
  | zero => simp [digits]
  | succ fuel ih =>
    rw [digits]
    split
    · simp
    cases k with
    | zero =>
      rw [Nat.pow_zero] at h
      omega
    | succ k =>
      rw [length_cons]
      exact Nat.succ_le_succ (ih (Nat.div_lt_of_lt_mul (by rwa [← Nat.pow_succ'])))

/-- Numbers. -/
def nat : Wire ℕ where
  put n := digits n n ++ [stop]
  get := read_digits
  get_put n rest := by
    rw [List.append_assoc]
    exact read_digits_digits le_rfl rest
  plain n b hb := by
    rcases List.mem_append.mp hb with h | h
    · exact digits_plain b h
    · rw [List.mem_singleton.mp h]
      decide

theorem length_nat_put_le (n : ℕ) : (nat.put n).length ≤ n + 1 := by
  simpa [nat] using length_digits_le

theorem length_nat_put_le_of_lt {n k : ℕ} (h : n < 16 ^ k) : (nat.put n).length ≤ k + 1 := by
  simpa [nat] using length_digits_le_of_lt h

/-! ## Pairs, lists and embeddings -/

/-- One value after the other. -/
def both (wa : Wire α) (wb : Wire β) : Wire (α × β) where
  put p := wa.put p.1 ++ wb.put p.2
  get bs :=
    match wa.get bs with
    | none => none
    | some (a, bs) =>
      match wb.get bs with
      | none => none
      | some (b, bs) => some ((a, b), bs)
  get_put p rest := by
    rw [List.append_assoc, wa.get_put]
    simp only [wb.get_put]
  plain p b hb := (List.mem_append.mp hb).elim (wa.plain _ b) (wb.plain _ b)

/-- Reading a number of values. -/
def get_many (w : Wire α) : ℕ → Bytes → Option (List α × Bytes)
  | 0, bs => some ([], bs)
  | n + 1, bs =>
    match w.get bs with
    | none => none
    | some (a, bs) =>
      match get_many w n bs with
      | none => none
      | some (as, bs) => some (a :: as, bs)

theorem get_many_flatMap (w : Wire α) (as : List α) (rest : Bytes) :
    w.get_many as.length (as.flatMap w.put ++ rest) = some (as, rest) := by
  induction as with
  | nil => rfl
  | cons a as ih =>
    rw [flatMap_cons, append_assoc, length_cons, get_many, w.get_put]
    simp only [ih]

/-- The number of values, and then the values. -/
def list (w : Wire α) : Wire (List α) where
  put as := nat.put as.length ++ as.flatMap w.put
  get bs :=
    match nat.get bs with
    | none => none
    | some (n, bs) => w.get_many n bs
  get_put as rest := by
    rw [List.append_assoc, nat.get_put]
    exact w.get_many_flatMap as rest
  plain as b hb := by
    rcases List.mem_append.mp hb with h | h
    · exact nat.plain _ b h
    · obtain ⟨a, -, ha⟩ := List.mem_flatMap.mp h
      exact w.plain a b ha

/-- A list is as long as its values and one byte for each, with one byte more. -/
theorem length_list_put_le (w : Wire α) (size : α → ℕ) (as : List α)
    (h : ∀ a ∈ as, (w.put a).length + 1 ≤ size a) :
    (w.list.put as).length ≤ 1 + (as.map size).sum := by
  have hcount : (nat.put as.length).length ≤ as.length + 1 := length_nat_put_le _
  have hvalues : (as.flatMap w.put).length + as.length ≤ (as.map size).sum := by
    clear hcount
    induction as with
    | nil => simp
    | cons a as ih =>
      have h₁ := h a mem_cons_self
      have h₂ := ih fun a' ha' => h a' (mem_cons_of_mem _ ha')
      rw [flatMap_cons, length_append, length_cons, map_cons, sum_cons]
      omega
  rw [list, length_append]
  omega

/-- What a type that embeds in another is written as. -/
def embed (f : α → β) (g : β → Option α) (h : ∀ a, g (f a) = some a) (w : Wire β) : Wire α where
  put a := w.put (f a)
  get bs :=
    match w.get bs with
    | none => none
    | some (b, bs) =>
      match g b with
      | none => none
      | some a => some (a, bs)
  get_put a rest := by
    rw [w.get_put]
    simp only [h]
  plain a := w.plain (f a)

/-- A number below a bound. -/
def fin (n : ℕ) : Wire (Fin n) :=
  nat.embed Fin.val (fun m => if h : m < n then some ⟨m, h⟩ else none) fun a => by
    rw [dif_pos a.isLt]

/-- A byte. -/
def byte : Wire UInt8 :=
  nat.embed UInt8.toNat (fun n => some (UInt8.ofNat n)) fun a => by
    rw [UInt8.ofNat_toNat]

/-- A value of a type that is listed, as its place in the list. -/
def among [DecidableEq α] (values : List α) (h : ∀ a, a ∈ values) : Wire α :=
  nat.embed (fun a => values.idxOf a) (fun n => values[n]?) fun a => List.getElem?_idxOf (h a)

theorem mem_bools (b : Bool) : b ∈ [false, true] := by cases b <;> decide

/-- A value that may be missing. -/
def option (w : Wire α) : Wire (Option α) :=
  w.list.embed Option.toList
    (fun as => match as with
      | [] => some none
      | [a] => some (some a)
      | _ => none)
    fun a => by cases a <;> rfl

/-- A text, character by character. -/
def text : Wire String :=
  nat.list.embed (fun s => s.toList.map Char.toNat)
    (fun ns => some (String.ofList (ns.map Char.ofNat))) fun s => by
    have hchars : (s.toList.map Char.toNat).map Char.ofNat = s.toList := by
      rw [List.map_map]
      exact List.map_id'' (fun c => Char.ofNat_toNat c) s.toList
    rw [hchars, String.ofList_toList]

theorem length_byte_put_le (b : UInt8) : (byte.put b).length ≤ 3 :=
  length_nat_put_le_of_lt (show b.toNat < 16 ^ 2 from b.toNat_lt)

/-! ## Records -/

/-- A value between braces, after a byte that says what kind of record it is. -/
def frame (w : Wire α) (tag : UInt8) (a : α) : Bytes :=
  open_brace :: tag :: (w.put a ++ [close_brace])

/-- Reading a record back, with or without the newline behind it. -/
def unframe (w : Wire α) (tag : UInt8) : Bytes → Option α
  | b :: t :: body =>
    if b = open_brace ∧ t = tag ∧ open_brace ∉ body then
      match w.get body with
      | none => none
      | some (a, rest) => if rest = [close_brace] ∨ rest = [close_brace, newline] then some a else none
    else none
  | _ => none

variable {w : Wire α} {tag : UInt8}

theorem open_brace_notMem (a : α) (rest : Bytes) (hrest : open_brace ∉ rest) :
    open_brace ∉ w.put a ++ rest := by
  intro h
  rcases mem_append.mp h with h | h
  · exact (w.plain a _ h).2.1 rfl
  · exact hrest h

theorem unframe_frame (a : α) : w.unframe tag (w.frame tag a ++ [newline]) = some a := by
  have hbody : open_brace ∉ w.put a ++ [close_brace, newline] := open_brace_notMem a _ (by decide)
  rw [frame, cons_append, cons_append, append_assoc, singleton_append, unframe,
    if_pos ⟨rfl, rfl, hbody⟩, w.get_put]
  exact if_pos (.inr rfl)

theorem unframe_frame_bare (a : α) : w.unframe tag (w.frame tag a) = some a := by
  have hbody : open_brace ∉ w.put a ++ [close_brace] := open_brace_notMem a _ (by decide)
  rw [frame, unframe, if_pos ⟨rfl, rfl, hbody⟩, w.get_put]
  exact if_pos (.inl rfl)

theorem unframe_frame_of_ne {w' : Wire β} {tag' : UInt8} (h : tag' ≠ tag) (b : β)
    (rest : Bytes) : w.unframe tag (w'.frame tag' b ++ rest) = none := by
  rw [frame, cons_append, cons_append, unframe, if_neg fun hc => h hc.2.1]

/-- A record behind anything at all is not read as one. -/
theorem unframe_glued {w' : Wire β} {tag' : UInt8} {text : Bytes} (h : text ≠ []) (b : β)
    (rest : Bytes) (htag : tag ≠ open_brace) :
    w.unframe tag (text ++ (w'.frame tag' b ++ rest)) = none := by
  match text, h with
  | [c], _ =>
    rw [frame, singleton_append, cons_append, unframe]
    exact if_neg fun hc => htag hc.2.1.symm
  | c :: t :: text, _ =>
    rw [cons_append, cons_append, unframe]
    refine if_neg fun hc => hc.2.2 ?_
    exact mem_append_right _ mem_cons_self

theorem newline_notMem_frame (htag : tag ≠ newline) (a : α) : newline ∉ w.frame tag a := by
  intro h
  rcases mem_cons.mp h with h | h
  · exact absurd h (by decide)
  rcases mem_cons.mp h with h | h
  · exact htag h.symm
  rcases mem_append.mp h with h | h
  · exact (w.plain a _ h).1 rfl
  · exact absurd (mem_singleton.mp h) (by decide)

theorem length_frame (a : α) : (w.frame tag a).length = (w.put a).length + 3 := by
  rw [frame, length_cons, length_cons, length_append, length_singleton]

end Wire

end BobbyBrowser
