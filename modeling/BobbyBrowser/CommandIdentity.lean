/-
The identity of a command (`interface-core/src/idempotency.rs`).

`canonicalize` sorts the members of every object of a JSON value by their keys,
`canonical_sha256` hashes what `serde_json` writes of the result, and
`command_identity_sha256` does so for an object of what a command does. An object
is a list of members in the order in which its map iterates; `Backing` says
whether that map is a `BTreeMap` or, under the `preserve_order` feature, an
`IndexMap`. The writer is `serde_json`'s compact one; the text of a number and the
hash are taken from outside.
-/
import BobbyBrowser.Delimited
import BobbyBrowser.Idempotency
import BobbyBrowser.Ranking

set_option autoImplicit false

namespace BobbyBrowser.Identity

open Lines Delimited Ranking Idempotency List

/-! ## JSON values -/

/-- `serde_json::Number`. A float is given by its bits and is finite. -/
inductive Number
  | pos_int (n : UInt64)
  | neg_int (magnitude : UInt64)
  | float (bits : UInt64)
  deriving DecidableEq

/-- The bits of `0.0` and `-0.0`, which `==` does not tell apart. -/
def zeros : List UInt64 := [0, 0x8000000000000000]

/-- The `==` of `Number`. -/
def Number.eq : Number → Number → Prop
  | .pos_int m, .pos_int n => m = n
  | .neg_int m, .neg_int n => m = n
  | .float m, .float n => m = n ∨ m ∈ zeros ∧ n ∈ zeros
  | _, _ => False

/-- `serde_json::Value`, with the bytes of its strings. -/
inductive Value
  | null
  | bool (b : Bool)
  | number (n : Number)
  | string (s : Bytes)
  | array (items : List Value)
  | object (map : List (Bytes × Value))

abbrev Member := Bytes × Value

/-- No map of the value has two members of one key. -/
inductive Value.Valid : Value → Prop
  | null : Valid .null
  | bool {b : Bool} : Valid (.bool b)
  | number {n : Number} : Valid (.number n)
  | string {s : Bytes} : Valid (.string s)
  | array {items : List Value} (h : ∀ value ∈ items, Valid value) : Valid (.array items)
  | object {map : List Member} (hkeys : (map.map Prod.fst).Nodup)
    (h : ∀ member ∈ map, Valid member.2) : Valid (.object map)

abbrev Json := { value : Value // value.Valid }

/-- Equal up to the order of the members of objects, at every depth, with numbers compared
by `eq`. -/
inductive Same (eq : Number → Number → Prop) : Value → Value → Prop
  | null : Same eq .null .null
  | bool {b : Bool} : Same eq (.bool b) (.bool b)
  | number {m n : Number} (h : eq m n) : Same eq (.number m) (.number n)
  | string {s : Bytes} : Same eq (.string s) (.string s)
  | array {xs ys : List Value} (h : List.Forall₂ (Same eq) xs ys) : Same eq (.array xs) (.array ys)
  | object {xs ys : List Member} (hkeys : (xs.map Prod.fst).Perm (ys.map Prod.fst))
    (h : ∀ x ∈ xs, ∀ y ∈ ys, x.1 = y.1 → Same eq x.2 y.2) : Same eq (.object xs) (.object ys)

/-! ## Maps -/

/-- What `serde_json::Map` is made of. -/
inductive Backing
  | sorted
  | insertion
  deriving DecidableEq

/-- The order of `str`, that of the bytes. -/
def order (member : Member) : List ℕ := member.1.map UInt8.toNat

/-- `Map::insert`. -/
def insert (backing : Backing) : List Member → Member → List Member
  | [], new => [new]
  | member :: map, new =>
    if member.1 = new.1 then new :: map
    else if backing = .sorted ∧ order new < order member then new :: member :: map
    else member :: insert backing map new

/-- `collect` into a `Map`. -/
def collect (backing : Backing) (entries : List Member) : List Member :=
  entries.foldl (insert backing) []

theorem sizeOf_member {map : List Member} {member : Member} (h : member ∈ map) :
    sizeOf member.2 < sizeOf (Value.object map) := by
  have hlt := sizeOf_lt_of_mem h
  have hmember : sizeOf member = 1 + sizeOf member.1 + sizeOf member.2 := rfl
  have hobject : sizeOf (Value.object map) = 1 + sizeOf map := Value.object.sizeOf_spec map
  omega

def canonicalize (backing : Backing) : Value → Value
  | .object map =>
    .object (collect backing
      (ranked order (map.map fun member => (member.1, canonicalize backing member.2))))
  | .array items => .array (items.map (canonicalize backing))
  | scalar => scalar
decreasing_by
  · exact sizeOf_member ‹_›
  · decreasing_tactic

/-! ## The text of a value -/

def ascii (s : String) : Bytes := s.toUTF8.data.toList

/-- The letter behind the backslash of a byte with a short escape. -/
def escape_letter (byte : UInt8) : Option UInt8 :=
  if byte = 34 ∨ byte = 92 then some byte
  else if byte = 8 then some 98
  else if byte = 9 then some 116
  else if byte = 10 then some 110
  else if byte = 12 then some 102
  else if byte = 13 then some 114
  else none

def hex_digit (n : UInt8) : UInt8 := if n < 10 then 48 + n else 87 + n

/-- A byte of a string, as `\u00xx` if it is another control character. -/
def escape (byte : UInt8) : Bytes :=
  match escape_letter byte with
  | some letter => [92, letter]
  | none =>
    if byte < 32 then [92, 117, 48, 48, hex_digit (byte / 16), hex_digit (byte % 16)] else [byte]

def quoted (s : Bytes) : Bytes := 34 :: s.flatMap escape ++ [34]

/-- `serde_json::to_vec`, with the text of a number from outside. -/
def to_vec (number : Number → Bytes) : Value → Bytes
  | .null => ascii "null"
  | .bool true => ascii "true"
  | .bool false => ascii "false"
  | .number n => number n
  | .string s => quoted s
  | .array items => listing 91 44 93 (items.map (to_vec number))
  | .object map =>
    listing 123 44 125 (map.map fun member => quoted member.1 ++ 58 :: to_vec number member.2)
decreasing_by
  · decreasing_tactic
  · exact sizeOf_member ‹_›

/-- A byte that the text of a number may hold. -/
def is_numeral (byte : UInt8) : Bool := decide (byte ∈ ascii "+-.0123456789Ee")

/-- What is asked of the texts of numbers. -/
structure Numerals (number : Number → Bytes) : Prop where
  injective : Function.Injective number
  nonempty : ∀ n, number n ≠ []
  numeral : ∀ n, ∀ byte ∈ number n, is_numeral byte = true

/-! ## Reading a text back -/

/-- What `escape` made a byte into. -/
def unescape : Bytes → UInt8
  | [byte] => byte
  | [_, letter] => (([8, 9, 10, 12, 13].find? (escape_letter · = some letter)).getD letter)
  | [_, _, _, _, high, low] =>
    let digit (c : UInt8) : UInt8 := if c < 58 then c - 48 else c - 87
    16 * digit high + digit low
  | _ => 0

theorem unescape_escape (byte : UInt8) : unescape (escape byte) = byte := by
  have h : ∀ n : Fin 256, unescape (escape ⟨⟨n⟩⟩) = ⟨⟨n⟩⟩ := by decide +kernel
  exact h byte.toBitVec.toFin

/-- An escaped byte is itself, a backslash with a letter other than `u`, or a backslash with `u00`
and two digits. -/
theorem escape_shape (byte : UInt8) :
    escape byte = [byte] ∧ byte ≠ 34 ∧ byte ≠ 92 ∨
    (∃ letter, escape byte = [92, letter] ∧ letter ≠ 117) ∨
    ∃ high low, escape byte = [92, 117, 48, 48, high, low] := by
  have h : ∀ n : Fin 256, escape_letter ⟨⟨n⟩⟩ ≠ some 117 ∧
      (escape_letter ⟨⟨n⟩⟩ = none → (⟨⟨n⟩⟩ : UInt8) ≠ 34 ∧ (⟨⟨n⟩⟩ : UInt8) ≠ 92) := by decide +kernel
  obtain ⟨hletter, hplain⟩ := h byte.toBitVec.toFin
  change escape_letter byte ≠ some 117 at hletter
  unfold escape
  split
  next letter heq =>
    exact .inr (.inl ⟨letter, rfl, fun h => hletter (h ▸ heq)⟩)
  next heq =>
    split
    · exact .inr (.inr ⟨_, _, rfl⟩)
    · exact .inl ⟨rfl, hplain heq⟩

/-- A byte can be told from what its escape begins with. -/
theorem escape_reads (byte : UInt8) : ReadsAt (fun _ => True) escape byte := by
  intro other rest rest' _ _ heq
  have hlength : (escape byte).length = (escape other).length := by
    obtain ⟨h, -, hne⟩ | ⟨letter, h, hne⟩ | ⟨high, low, h⟩ := escape_shape byte <;>
      obtain ⟨h', -, hne'⟩ | ⟨letter', h', hne'⟩ | ⟨high', low', h'⟩ := escape_shape other <;>
      rw [h, h'] at heq <;> simp_all
  obtain ⟨hescape, hrest⟩ := append_inj heq hlength
  have hbyte := congrArg unescape hescape
  rw [unescape_escape, unescape_escape] at hbyte
  exact ⟨hbyte, hrest⟩

/-- A quoted string ends at the first quote that is not escaped, so two strings followed by anything
are told apart. -/
theorem quoted_reads {s s' rest rest' : Bytes} (heq : quoted s ++ rest = quoted s' ++ rest') :
    s = s' ∧ rest = rest' := by
  have hopen : ∀ byte, ∃ b x, escape byte = b :: x ∧ b ≠ 34 ∧ True := by
    intro byte
    obtain ⟨h, hne, -⟩ | ⟨letter, h, -⟩ | ⟨high, low, h⟩ := escape_shape byte
    · exact ⟨byte, [], h, hne, trivial⟩
    · exact ⟨92, [letter], h, by decide, trivial⟩
    · exact ⟨92, _, h, by decide, trivial⟩
  simp only [quoted, cons_append, append_assoc, nil_append, cons.injEq, true_and] at heq
  exact flatMap_reads hopen trivial (fun byte _ => escape_reads byte) heq

section Text

variable {number : Number → Bytes} {a b : Value} {rest rest' : Bytes}

/-- The byte that the text of a value begins with; a number's does not say which. -/
def Value.opening : Value → Option UInt8
  | .null => some 110
  | .bool true => some 116
  | .bool false => some 102
  | .number _ => none
  | .string _ => some 34
  | .array _ => some 91
  | .object _ => some 123

theorem listing_cons (opening comma close : UInt8) (texts : List Bytes) :
    ∃ x, listing opening comma close texts = opening :: x := by
  cases texts with
  | nil => exact ⟨_, rfl⟩
  | cons first rest => exact ⟨_, rfl⟩

section

variable (h : Numerals number)

include h

/-- A document begins with a byte that says what it is; only a number begins with one of a
numeral. -/
theorem to_vec_cons (a : Value) : ∃ byte x,
    to_vec number a = byte :: x ∧ a.opening = if is_numeral byte = true then none else some byte := by
  cases a with
  | null => exact ⟨110, _, by rw [to_vec]; rfl, by decide⟩
  | bool b =>
    cases b with
    | false => exact ⟨102, _, by rw [to_vec]; rfl, by decide⟩
    | true => exact ⟨116, _, by rw [to_vec]; rfl, by decide⟩
  | number n =>
    obtain ⟨byte, x, hx⟩ := exists_cons_of_ne_nil (h.nonempty n)
    have hbyte := h.numeral n byte (hx ▸ mem_cons_self)
    exact ⟨byte, x, by rw [to_vec, hx], (if_pos hbyte).symm⟩
  | string s => exact ⟨34, _, by rw [to_vec]; rfl, rfl⟩
  | array items =>
    obtain ⟨x, hx⟩ := listing_cons 91 44 93 (items.map (to_vec number))
    exact ⟨91, x, by rw [to_vec, hx], rfl⟩
  | object map =>
    rw [to_vec]
    obtain ⟨x, hx⟩ := listing_cons 123 44 125 _
    exact ⟨123, x, hx, rfl⟩

theorem opening_eq_of_append
    (heq : to_vec number a ++ rest = to_vec number b ++ rest') : a.opening = b.opening := by
  obtain ⟨byte, x, hx, ha⟩ := to_vec_cons h a
  obtain ⟨byte', x', hx', hb⟩ := to_vec_cons h b
  rw [hx, hx'] at heq
  rw [ha, hb, head_eq_of_cons_eq heq]

theorem number_reads (n : Number) : ReadsAt (fun byte => is_numeral byte = false) number n := by
  intro n' rest rest' hrest hrest' heq
  have htext := congrArg (takeWhile is_numeral) heq
  rw [takeWhile_append_of_ends (h.numeral n) hrest,
    takeWhile_append_of_ends (h.numeral n') hrest'] at htext
  rw [htext] at heq
  exact ⟨h.injective htext, append_cancel_left heq⟩

/-- **The text of a document determines it**, if what follows cannot go on with a number. By
induction on the document. -/
theorem to_vec_reads (a : Value) :
    ReadsAt (fun byte => is_numeral byte = false) (to_vec number) a := by
  have hopen : ∀ a : Value, ∃ byte x, to_vec number a = byte :: x ∧ byte ≠ 93 := by
    intro a
    obtain ⟨byte, x, hx, ha⟩ := to_vec_cons h a
    refine ⟨byte, x, hx, ?_⟩
    rintro rfl
    change a.opening = some 93 at ha
    rcases a with _ | (_ | _) | _ | _ | _ | _ <;> simp [Value.opening] at ha
  -- Two texts that begin alike are of one kind; what is left is the induction's own case.
  induction a using to_vec.induct <;> intro b rest rest' hrest hrest' heq <;>
    have hopening := opening_eq_of_append h heq <;>
    rcases b with _ | (_ | _) | n' | s' | items' | map' <;>
    simp only [Value.opening, Option.some.injEq, reduceCtorEq] at hopening <;>
    try exact absurd hopening (by decide)
  all_goals simp only [to_vec] at heq
  case case1.null => exact ⟨rfl, append_cancel_left heq⟩
  case case2.bool.true => exact ⟨rfl, append_cancel_left heq⟩
  case case3.bool.false => exact ⟨rfl, append_cancel_left heq⟩
  case case4.number n =>
    obtain ⟨rfl, hrest⟩ := number_reads h n n' rest rest' hrest hrest' heq
    exact ⟨rfl, hrest⟩
  case case5.string s =>
    obtain ⟨rfl, hrest⟩ := quoted_reads heq
    exact ⟨rfl, hrest⟩
  case case6.array items ih =>
    obtain ⟨rfl, hrest⟩ := listing_reads (by decide) (by decide) (by decide)
      hopen ih heq
    exact ⟨rfl, hrest⟩
  case case7.object map ih =>
    have hmember : ∀ member ∈ map, ReadsAt (fun byte => is_numeral byte = false)
        (fun member => quoted member.1 ++ 58 :: to_vec number member.2) member := by
      intro member hmem other rest rest' hrest hrest' heq
      simp only [append_assoc] at heq
      obtain ⟨hkey, htail⟩ := quoted_reads heq
      obtain ⟨hvalue, hrest⟩ := ih member hmem other.2 rest rest' hrest hrest'
        (tail_eq_of_cons_eq htail)
      exact ⟨Prod.ext hkey hvalue, hrest⟩
    obtain ⟨rfl, hrest⟩ := listing_reads (by decide) (by decide) (by decide)
      (fun member => ⟨34, _, rfl, by decide⟩) hmember heq
    exact ⟨rfl, hrest⟩

theorem to_vec_injective : Function.Injective (to_vec number) := by
  intro a b heq
  have hnil : Ends (fun byte => is_numeral byte = false) [] := by simp [Ends]
  exact (to_vec_reads h a b [] [] hnil hnil (by rw [heq])).1

end

end Text

/-! ## Canonical values -/

section Canonical

variable {backing backing' : Backing} {map entries : List Member} {new : Member} {a b : Value}

theorem order_injective : Function.Injective fun key : Bytes => key.map UInt8.toNat :=
  map_injective_iff.mpr fun _ _ => UInt8.toNat_inj.mp

theorem insert_greatest (h : ∀ member ∈ map, order member < order new) :
    insert backing map new = map ++ [new] := by
  induction map with
  | nil => rfl
  | cons member map ih =>
    have hlt := h member mem_cons_self
    have hne : member.1 ≠ new.1 := fun heq => hlt.ne (congrArg (List.map UInt8.toNat) heq)
    rw [insert, if_neg hne, if_neg fun hless => hlt.not_gt hless.2,
      ih fun other hother => h other (mem_cons_of_mem member hother)]
    rfl

theorem foldl_insert (h : (map ++ entries).Pairwise (order · < order ·)) :
    entries.foldl (insert backing) map = map ++ entries := by
  induction entries generalizing map with
  | nil => exact (append_nil map).symm
  | cons new entries ih =>
    have hnew : ∀ member ∈ map, order member < order new := fun member hmember =>
      (pairwise_append.mp h).2.2 member hmember new mem_cons_self
    rw [append_cons] at h ⊢
    rw [foldl_cons, insert_greatest hnew, ih h]

theorem pairwise_order (h : (entries.map Prod.fst).Nodup) :
    (ranked order entries).Pairwise (order · < order ·) := by
  apply pairwise_ranked
  have hmap : entries.map order = (entries.map Prod.fst).map fun key => key.map UInt8.toNat :=
    (map_map).symm
  rw [hmap]
  exact h.map order_injective

/-- Under either backing the map of the sorted entries iterates in their order. -/
theorem collect_ranked (h : (entries.map Prod.fst).Nodup) :
    collect backing (ranked order entries) = ranked order entries :=
  foldl_insert (pairwise_order h)

theorem ranked_eq_iff {l l' : List Member} (h : (l.map Prod.fst).Nodup)
    (h' : (l'.map Prod.fst).Nodup) : ranked order l = ranked order l' ↔ l.Perm l' := by
  constructor
  · intro heq
    exact (ranked_perm l).symm.trans (heq ▸ ranked_perm l')
  · intro hperm
    refine Perm.eq_of_pairwise (fun _ _ _ _ hab hba => absurd hba hab.not_gt)
      (pairwise_order h) (pairwise_order h') ?_
    exact (ranked_perm l).trans (hperm.trans (ranked_perm l').symm)

/-- A member with its value in canonical form. -/
def canonical_member (backing : Backing) (member : Member) : Member :=
  (member.1, canonicalize backing member.2)

theorem keys_canonical_member (map : List Member) :
    (map.map (canonical_member backing)).map Prod.fst = map.map Prod.fst := map_map

theorem canonicalize_object_eq_iff {xs ys : List Member} (hxs : (xs.map Prod.fst).Nodup)
    (hys : (ys.map Prod.fst).Nodup) :
    canonicalize backing (.object xs) = canonicalize backing' (.object ys) ↔
      (xs.map (canonical_member backing)).Perm (ys.map (canonical_member backing')) := by
  rw [← keys_canonical_member] at hxs hys
  rw [canonicalize, canonicalize, Value.object.injEq, ← ranked_eq_iff hxs hys]
  exact Eq.congr (collect_ranked hxs) (collect_ranked hys)

/-- Two mapped lists are equal when they are so place by place. -/
theorem map_eq_map_iff_forall₂ {α β : Type*} {f g : α → β} {R : α → α → Prop} {xs ys : List α}
    (h : ∀ x ∈ xs, ∀ y ∈ ys, f x = g y ↔ R x y) : xs.map f = ys.map g ↔ List.Forall₂ R xs ys := by
  induction xs generalizing ys with
  | nil => cases ys <;> simp
  | cons x xs ih =>
    cases ys with
    | nil => simp
    | cons y ys =>
      rw [map_cons, map_cons, cons.injEq, forall₂_cons,
        h x mem_cons_self y mem_cons_self,
        ih fun x hx y hy => h x (mem_cons_of_mem _ hx) y (mem_cons_of_mem _ hy)]

/-- Maps of the same keys are permutations of each other when no key has two values. -/
theorem perm_of_keys {xs ys : List Member} (hkeys : (xs.map Prod.fst).Perm (ys.map Prod.fst))
    (hnodup : (xs.map Prod.fst).Nodup) (h : ∀ x ∈ xs, ∀ y ∈ ys, x.1 = y.1 → x = y) :
    xs.Perm ys := by
  rw [perm_ext_iff_of_nodup hnodup.of_map (hkeys.nodup_iff.mp hnodup).of_map]
  intro member
  constructor
  · intro hx
    obtain ⟨y, hy, heq⟩ := mem_map.mp (hkeys.subset (mem_map_of_mem hx))
    exact h member hx y hy heq.symm ▸ hy
  · intro hy
    obtain ⟨x, hx, heq⟩ := mem_map.mp (hkeys.symm.subset (mem_map_of_mem hy))
    exact h x hx member hy heq ▸ hx

/-- Two values have one canonical form when they are equal up to the order of members. -/
theorem canonicalize_eq_iff (ha : a.Valid) (hb : b.Valid) :
    canonicalize backing a = canonicalize backing' b ↔ Same (· = ·) a b := by
  induction ha generalizing b with
  | @array xs h ih =>
    cases hb with
    | @array ys h' =>
      rw [canonicalize, canonicalize, Value.array.injEq,
        map_eq_map_iff_forall₂ fun x hx y hy => ih x hx (h' y hy)]
      exact ⟨.array, fun | .array h => h⟩
    | _ => exact ⟨fun h => by simp [canonicalize] at h, nofun⟩
  | @object xs hkeys h ih =>
    cases hb with
    | @object ys hkeys' h' =>
      rw [canonicalize_object_eq_iff hkeys hkeys']
      constructor
      · intro hperm
        have hmap := hperm.map Prod.fst
        rw [keys_canonical_member, keys_canonical_member] at hmap
        refine .object hmap fun x hx y hy hkey => (ih x hx (h' y hy)).mp ?_
        obtain ⟨z, hz, heq⟩ := mem_map.mp (hperm.subset (mem_map_of_mem hx))
        have hzy : z = y := inj_on_of_nodup_map hkeys' hz hy ((congrArg Prod.fst heq).trans hkey)
        exact (hzy ▸ congrArg Prod.snd heq).symm
      · rintro (_ | _ | _ | _ | _ | ⟨hmap, hsame⟩)
        refine perm_of_keys ?_ ((keys_canonical_member xs).symm ▸ hkeys) ?_
        · rw [keys_canonical_member, keys_canonical_member]
          exact hmap
        · intro _ hx' _ hy' hkey
          obtain ⟨x, hx, rfl⟩ := mem_map.mp hx'
          obtain ⟨y, hy, rfl⟩ := mem_map.mp hy'
          exact Prod.ext hkey ((ih x hx (h' y hy)).mpr (hsame x hx y hy hkey))
    | _ => exact ⟨fun h => by simp [canonicalize] at h, nofun⟩
  | _ =>
    constructor
    · intro h
      cases hb <;> (simp only [canonicalize] at h; cases h)
      all_goals first | exact .number rfl | constructor
    · intro h
      cases h
      simp_all only [canonicalize]

end Canonical

/-! ## Identities -/

/-- What `serde_json` and `sha2` give: the text of a number and the digest of a text. -/
structure Codec (Digest : Type) where
  number : Number → Bytes
  sha256 : Bytes → Digest

/-- The arguments of `command_identity_sha256`. What `to_value` makes of an argument stands for
it; it may fail. -/
structure Request where
  schema_version : UInt16
  session_id : Option Json
  page_id : Option Json
  command : Option Json
  consent : Bool

section Requests

variable {Digest : Type} (C : Codec Digest) (backing : Backing)

def canonicalization_error (correlation_id : CorrelationId) : InterfaceError :=
  ⟨.invalid_request, .interface, "request cannot be canonicalized", correlation_id, false, none,
    false⟩

/-- `canonical_sha256` of what is a value already. -/
def canonical_sha256 (value : Value) : Digest :=
  C.sha256 (to_vec C.number (canonicalize backing value))

/-- The members of the object that is hashed. -/
def identity_members (schema_version : UInt16) (session_id page_id command : Value)
    (consent : Bool) : List Member :=
  [(ascii "schemaVersion", .number (.pos_int schema_version.toUInt64)),
    (ascii "sessionId", session_id), (ascii "pageId", page_id), (ascii "command", command),
    (ascii "consent", .bool consent)]

def command_identity_sha256 (correlation_id : CorrelationId) (request : Request) :
    Except InterfaceError Digest :=
  match request.session_id, request.page_id, request.command with
  | some session_id, some page_id, some command =>
    .ok (canonical_sha256 C backing (.object (collect backing
      (identity_members request.schema_version session_id page_id command request.consent))))
  | _, _, _ => .error (canonicalization_error correlation_id)

end Requests

/-- Both arguments could be converted and are equal up to the order of members. -/
def SameArgument (a b : Option Json) : Prop :=
  ∃ value ∈ a, ∃ value' ∈ b, Same (· = ·) value.1 value'.1

structure Request.Same (r r' : Request) : Prop where
  schema_version : r.schema_version = r'.schema_version
  session_id : SameArgument r.session_id r'.session_id
  page_id : SameArgument r.page_id r'.page_id
  command : SameArgument r.command r'.command
  consent : r.consent = r'.consent

section Identity

variable {Digest : Type} {C : Codec Digest} {backing backing' : Backing}

/-- The canonical form of what is hashed. -/
def canonical_members (backing : Backing) (schema_version : UInt16)
    (session_id page_id command : Value) (consent : Bool) : List Member :=
  [(ascii "command", canonicalize backing command), (ascii "consent", .bool consent),
    (ascii "pageId", canonicalize backing page_id),
    (ascii "schemaVersion", .number (.pos_int schema_version.toUInt64)),
    (ascii "sessionId", canonicalize backing session_id)]

/-- The canonical form of the identity document has its members sorted and each of them
canonical. -/
theorem canonicalize_identity (schema_version : UInt16) (session_id page_id command : Value)
    (consent : Bool) :
    canonicalize backing (.object (collect backing
      (identity_members schema_version session_id page_id command consent))) =
    .object (canonical_members backing schema_version session_id page_id command consent) := by
  have hbool : canonicalize backing (.bool consent) = .bool consent := by simp only [canonicalize]
  have hnumber : canonicalize backing (.number (.pos_int schema_version.toUInt64)) =
      .number (.pos_int schema_version.toUInt64) := by simp only [canonicalize]
  rw [canonicalize, canonical_members, ← hbool, ← hnumber]
  cases backing with
  | sorted => rfl
  | insertion => rfl

/-- A request has an identity when its three documents serialize; it is the digest of their
canonical text, and the correlation id is no part of it. -/
theorem command_identity_eq_ok_iff {correlation_id : CorrelationId} {r : Request} {digest : Digest} :
    command_identity_sha256 C backing correlation_id r = .ok digest ↔
      ∃ session_id ∈ r.session_id, ∃ page_id ∈ r.page_id, ∃ command ∈ r.command,
        C.sha256 (to_vec C.number (.object (canonical_members backing r.schema_version session_id
          page_id command r.consent))) = digest := by
  unfold command_identity_sha256 canonical_sha256
  split
  next session_id page_id command hs hp hc =>
    simp [hs, hp, hc, canonicalize_identity]
  next hnone =>
    constructor
    · nofun
    · rintro ⟨session_id, hs, page_id, hp, command, hc, -⟩
      exact (hnone session_id page_id command hs hp hc).elim

/-- **The identity of a command is canonical.** Whatever the maps are backed by, two documents have
one canonical text exactly when they are the same up to the order of their members, and two requests
have one identity exactly when they are the same in all that counts; the correlation id does not. -/
theorem canonical_identity (C : Codec Digest) (backing backing' : Backing)
    (hnumber : Numerals C.number) (hsha256 : Function.Injective C.sha256) :
    (∀ a b : Json,
      to_vec C.number (canonicalize backing a) = to_vec C.number (canonicalize backing' b) ↔
        Same (· = ·) a.1 b.1) ∧
    ∀ (correlation_id correlation_id' : CorrelationId) (r r' : Request),
      (∃ digest, command_identity_sha256 C backing correlation_id r = .ok digest ∧
        command_identity_sha256 C backing' correlation_id' r' = .ok digest) ↔ r.Same r' := by
  have hsame : ∀ a b : Json, canonicalize backing a = canonicalize backing' b ↔
      Same (· = ·) a.1 b.1 := fun a b => canonicalize_eq_iff a.2 b.2
  refine ⟨fun a b => (to_vec_injective hnumber).eq_iff.trans (hsame a b), ?_⟩
  intro correlation_id correlation_id' r r'
  simp only [command_identity_eq_ok_iff]
  constructor
  · rintro ⟨_, ⟨s, hs, p, hp, c, hc, rfl⟩, s', hs', p', hp', c', hc', heq⟩
    have hvalue := to_vec_injective hnumber (hsha256 heq)
    simp only [canonical_members, Value.object.injEq, cons.injEq, Prod.mk.injEq, true_and,
      and_true, Value.bool.injEq, Value.number.injEq, Number.pos_int.injEq] at hvalue
    obtain ⟨hcommand, hconsent, hpage, hschema, hsession⟩ := hvalue
    exact {
      schema_version := (UInt16.toUInt64_inj.mp hschema).symm
      session_id := ⟨s, hs, s', hs', (hsame s s').mp hsession.symm⟩
      page_id := ⟨p, hp, p', hp', (hsame p p').mp hpage.symm⟩
      command := ⟨c, hc, c', hc', (hsame c c').mp hcommand.symm⟩
      consent := hconsent.symm }
  · rintro ⟨hschema, ⟨s, hs, s', hs', hsession⟩, ⟨p, hp, p', hp', hpage⟩,
      ⟨c, hc, c', hc', hcommand⟩, hconsent⟩
    refine ⟨_, ⟨s, hs, p, hp, c, hc, rfl⟩, s', hs', p', hp', c', hc', ?_⟩
    rw [canonical_members, canonical_members, hschema, hconsent, (hsame s s').mpr hsession,
      (hsame p p').mpr hpage, (hsame c c').mpr hcommand]

end Identity

/-- Numbers in unary, behind a sign that tells their kinds apart. -/
def unary : Number → Bytes
  | .pos_int n => 43 :: List.replicate n.toNat 48
  | .neg_int magnitude => 45 :: List.replicate magnitude.toNat 48
  | .float bits => 46 :: List.replicate bits.toNat 48

theorem numerals_unary : Numerals unary where
  injective m n h := by
    cases m <;> cases n <;> simp_all [unary, UInt64.toNat_inj]
  nonempty n := by cases n <;> nofun
  numeral n byte h := by
    cases n <;> simp only [unary, mem_cons, mem_replicate] at h <;>
      obtain rfl | ⟨-, rfl⟩ := h <;> rfl

/-- An object and the same with its members in another order, under the two backings. -/
theorem canonical_identity_reordered :
    to_vec unary (canonicalize .sorted (.object [(ascii "a", .null), (ascii "b", .null)])) =
    to_vec unary (canonicalize .insertion (.object [(ascii "b", .null), (ascii "a", .null)])) := by
  have hvalid : ∀ keys : List Bytes, keys.Nodup →
      (Value.object (keys.map fun key => (key, .null))).Valid := by
    intro keys hkeys
    refine .object (by simpa [Function.comp_def] using hkeys) fun member hmember => ?_
    obtain ⟨key, -, rfl⟩ := mem_map.mp hmember
    exact .null
  have h := canonical_identity ⟨unary, id⟩ .sorted .insertion numerals_unary Function.injective_id
  exact (h.1 ⟨_, hvalid [ascii "a", ascii "b"] (by decide)⟩
    ⟨_, hvalid [ascii "b", ascii "a"] (by decide)⟩).mpr
    (.object (.swap _ _ _) (by simp [Same.null]))

/-- The two zeros are equal numbers with different texts. -/
theorem zeros_written_apart : ∃ a b : Json, Same Number.eq a.1 b.1 ∧
    ∀ number, Numerals number → ∀ backing,
      to_vec number (canonicalize backing a) ≠ to_vec number (canonicalize backing b) := by
  refine ⟨⟨.number (.float 0), .number⟩, ⟨.number (.float 0x8000000000000000), .number⟩,
    .number (.inr ⟨by decide, by decide⟩), ?_⟩
  intro number hnumber backing heq
  simp only [canonicalize] at heq
  have hvalue := to_vec_injective hnumber heq
  simp at hvalue

end BobbyBrowser.Identity
