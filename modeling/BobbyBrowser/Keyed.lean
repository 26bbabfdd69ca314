/-
Keyed collections: a map held as the list of its values, each of which carries
its own key.

`get`, `remove` and `insert` are the operations of a hash map, and `Unique` is
the one thing a hash map promises, that no key occurs twice. The order of the
list stands for the iteration order, which no result below depends on.
-/
import Mathlib.Data.List.Nodup
import Mathlib.Data.List.Perm.Basic

set_option autoImplicit false

namespace BobbyBrowser.Keyed

open Option hiding filter_filter
open List

/-! ## Unique keys -/

section

variable {α κ : Type} (key : α → κ)

/-- No key occurs twice. -/
def Unique (l : List α) : Prop := (l.map key).Nodup

instance [DecidableEq κ] (l : List α) : Decidable (Unique key l) :=
  inferInstanceAs (Decidable (l.map key).Nodup)

variable {key} {a : α} {l m : List α}

section

variable (h : Unique key l)

include h

theorem Unique.sublist (hm : m.Sublist l) : Unique key m :=
  Nodup.sublist (hm.map _) h

theorem Unique.filter (p : α → Bool) : Unique key (l.filter p) :=
  h.sublist filter_sublist

theorem Unique.perm (hm : m.Perm l) : Unique key m :=
  (hm.map key).nodup_iff.mpr h

theorem Unique.append_singleton (ha : key a ∉ l.map key) :
    Unique key (l ++ [a]) := by
  rw [Unique, map_append, map_singleton]
  refine nodup_append.mpr ⟨h, nodup_singleton _, ?_⟩
  intro x hx y hy
  rw [mem_singleton.mp hy]
  rintro rfl
  exact ha hx

end

end

/-! ## The map operations -/

section

variable {α κ : Type} [DecidableEq κ] (key : α → κ)

/-- The value under `k`. -/
def get (k : κ) (l : List α) : Option α := l.find? fun a => key a = k

/-- Drop the value under `k`, if there is one. -/
def remove (k : κ) (l : List α) : List α := l.filter fun a => key a ≠ k

/-- Put `a` under its own key, replacing what was there. -/
def insert (a : α) (l : List α) : List α := remove key (key a) l ++ [a]

variable {key} {k k' : κ} {a b : α} {l : List α}

theorem key_of_get (h : get key k l = some a) : key a = k := by
  simpa using find?_some h

theorem mem_of_get (h : get key k l = some a) : a ∈ l := mem_of_find?_eq_some h

theorem get_isSome_iff : (get key k l).isSome ↔ k ∈ l.map key := by
  rw [get, find?_isSome]
  simp [List.mem_map]

theorem Unique.get_of_mem (h : Unique key l) (ha : a ∈ l) (hk : key a = k) :
    get key k l = some a := by
  subst hk
  obtain ⟨b, hb⟩ := isSome_iff_exists.mp (get_isSome_iff.mpr (mem_map_of_mem (f := key) ha))
  rw [hb, inj_on_of_nodup_map h (mem_of_get hb) ha (key_of_get hb)]

theorem get_eq_some_iff_of_unique (h : Unique key l) : get key k l = some a ↔ a ∈ l ∧ key a = k :=
  ⟨fun hg => ⟨mem_of_get hg, key_of_get hg⟩, fun ha => h.get_of_mem ha.1 ha.2⟩

theorem get_filter_of_pos {p : α → Bool} (h : get key k l = some a) (hp : p a) :
    get key k (l.filter p) = some a := by
  obtain ⟨hk, before, after, rfl, hbefore⟩ := find?_eq_some_iff_append.mp h
  rw [get, find?_filter, find?_eq_some_iff_append]
  refine ⟨by rw [hp, hk]; rfl, before, after, rfl, fun b hb => ?_⟩
  simp [of_decide_eq_false (Bool.not_eq_true' _ ▸ hbefore b hb)]

theorem get_filter (hu : Unique key l) (p : α → Bool) :
    get key k (l.filter p) = (get key k l).filter p := by
  ext a
  rw [get_eq_some_iff_of_unique (hu.filter p), mem_filter, Option.filter_eq_some_iff,
    get_eq_some_iff_of_unique hu, and_right_comm]

theorem get_eq_none_iff : get key k l = none ↔ ∀ b ∈ l, key b ≠ k := by
  simp [get]

theorem get_eq_none_iff_notMem : get key k l = none ↔ k ∉ l.map key := by
  rw [get_eq_none_iff]
  simp only [List.mem_map, not_exists, not_and]

/-- What is under a key when only some keys are kept. -/
theorem get_filter_key (q : κ → Bool) :
    get key k (l.filter fun a => q (key a)) = if q k then get key k l else none := by
  rw [get, find?_filter]
  split <;> rename_i hk
  · rw [get]
    congr 1
    funext b
    by_cases hb : key b = k
    · simp [hb, hk]
    · simp [hb]
  · rw [find?_eq_none]
    rintro b - hb
    simp only [decide_eq_true_eq] at hb
    exact hk (hb.2 ▸ hb.1)

@[simp] theorem mem_remove : b ∈ remove key k l ↔ b ∈ l ∧ key b ≠ k := by
  simp [remove]

theorem mem_insert : b ∈ insert key a l ↔ (b ∈ l ∧ key b ≠ key a) ∨ b = a := by
  simp [insert]

@[simp] theorem get_remove_self : get key k (remove key k l) = none := by
  rw [get_eq_none_iff]
  exact fun b hb => (mem_remove.mp hb).2

theorem get_remove_of_ne (h : k ≠ k') : get key k (remove key k' l) = get key k l := by
  rw [remove, get_filter_key (fun x => x ≠ k'), if_pos (decide_eq_true h)]

theorem get_append_of_none {m : List α} (h : get key k l = none) :
    get key k (l ++ m) = get key k m := by
  rw [get, find?_append, show l.find? (fun a => key a = k) = none from h, none_or, get]

@[simp] theorem get_insert_self : get key (key a) (insert key a l) = some a := by
  rw [insert, get_append_of_none get_remove_self]
  simp [get]

theorem get_insert_of_ne (h : k ≠ key a) : get key k (insert key a l) = get key k l := by
  rw [insert, get, find?_append]
  have h1 : (remove key (key a) l).find? (fun b => key b = k) = get key k l := get_remove_of_ne h
  have h2 : [a].find? (fun b => decide (key b = k)) = none := by simp [Ne.symm h]
  rw [h1, h2, or_none]

/-- The last value put under a key is the one that counts. -/
theorem insert_insert {b : α} (h : key a = key b) :
    insert key a (insert key b l) = insert key a l := by
  rw [insert, insert, insert, remove, filter_append, h]
  have hgone : [b].filter (fun c => decide (key c ≠ key b)) = [] := by simp
  rw [hgone, append_nil, remove, filter_filter]
  simp only [Bool.and_self]

theorem Unique.remove (h : Unique key l) : Unique key (remove key k l) := h.sublist filter_sublist

theorem Unique.insert (h : Unique key l) : Unique key (insert key a l) := by
  refine Unique.append_singleton h.remove ?_
  intro hm
  obtain ⟨b, hb, hbk⟩ := mem_map.mp hm
  exact (mem_remove.mp hb).2 hbk

theorem remove_of_notMem (h : k ∉ l.map key) : remove key k l = l := by
  rw [remove, filter_eq_self]
  intro b hb
  simp only [ne_eq, decide_not, Bool.not_eq_eq_eq_not, Bool.not_true, decide_eq_false_iff_not]
  exact fun hbk => h (hbk ▸ mem_map_of_mem hb)

/-- A list with unique keys is the value under a key and the rest. -/
theorem perm_cons_remove (hu : Unique key l) (h : get key k l = some a) :
    l.Perm (a :: remove key k l) := by
  have hk := key_of_get h
  obtain ⟨-, before, after, rfl, -⟩ := find?_eq_some_iff_append.mp h
  rw [Unique, map_append, map_cons, nodup_middle, nodup_cons, ← map_append, hk] at hu
  have hrest : remove key k (before ++ a :: after) = before ++ after := by
    rw [remove, filter_append, filter_cons_of_neg (by simp [hk]), ← filter_append]
    exact remove_of_notMem hu.1
  rw [hrest]
  exact perm_middle

theorem length_remove_of_mem (h : Unique key l) (hk : k ∈ l.map key) :
    (remove key k l).length + 1 = l.length := by
  obtain ⟨a, ha⟩ := isSome_iff_exists.mp (get_isSome_iff.mpr hk)
  exact (perm_cons_remove h ha).length_eq.symm

theorem length_remove_le : (remove key k l).length ≤ l.length := length_filter_le _ _

theorem length_insert_le : (insert key a l).length ≤ l.length + 1 := by
  rw [insert, length_append, length_singleton]
  exact Nat.succ_le_succ length_remove_le

/-- An insertion adds a value, unless it replaces one. -/
theorem length_insert (h : Unique key l) :
    (insert key a l).length = if (get key (key a) l).isNone then l.length + 1 else l.length := by
  rw [insert, length_append, length_singleton]
  by_cases hk : key a ∈ l.map key
  · have hsome : (get key (key a) l).isNone = false := by
      rw [← not_isSome, get_isSome_iff.mpr hk]
      rfl
    rw [hsome, if_neg Bool.false_ne_true, length_remove_of_mem h hk]
  · have hnone : get key (key a) l = none := get_eq_none_iff_notMem.mpr hk
    rw [hnone, remove_of_notMem hk]
    rfl

/-! ## Many at once -/

/-- Removing keys one after the other. -/
def removeAll (key : α → κ) (ks : List κ) (l : List α) : List α := ks.foldl (fun l k => remove key k l) l

/-- Putting values in one after the other. -/
def insertAll (key : α → κ) (as : List α) (l : List α) : List α := as.foldl (fun l a => insert key a l) l

theorem removeAll_eq_filter (ks : List κ) (l : List α) :
    removeAll key ks l = l.filter fun a => key a ∉ ks := by
  induction ks generalizing l with
  | nil => simp [removeAll]
  | cons k ks ih =>
    rw [removeAll, foldl_cons, ← removeAll, ih, remove, filter_filter]
    apply filter_congr
    intro b _
    simp only [mem_cons, not_or, ne_eq, decide_not, Bool.decide_and, Bool.and_comm]

theorem removeAll_sublist (ks : List κ) (l : List α) : (removeAll key ks l).Sublist l := by
  rw [removeAll_eq_filter]
  exact filter_sublist

/-- Of two parts, the second is what has none of the keys of the first. -/
theorem filter_notMem_front {front back : List α} (h : Unique key (front ++ back)) :
    ((front ++ back).filter fun a => key a ∉ front.map key) = back := by
  rw [Unique, map_append] at h
  rw [filter_append, filter_eq_nil_iff.mpr, filter_eq_self.mpr, nil_append]
  · intro a ha
    exact decide_eq_true fun hk => disjoint_of_nodup_append h hk (mem_map_of_mem ha)
  · intro a ha hk
    exact of_decide_eq_true hk (mem_map_of_mem ha)

theorem Unique.removeAll (h : Unique key l) (ks : List κ) : Unique key (removeAll key ks l) := by
  rw [removeAll_eq_filter]
  exact h.filter _

/-- Removing keys that are there takes one value for each. -/
theorem length_removeAll {ks : List κ} (h : Unique key l) (hks : ks.Nodup)
    (hmem : ∀ k ∈ ks, k ∈ l.map key) : (removeAll key ks l).length + ks.length = l.length := by
  induction ks generalizing l with
  | nil => rfl
  | cons k ks ih =>
    have hk := nodup_cons.mp hks
    have hlen := length_remove_of_mem h (hmem k mem_cons_self)
    have hrest : ∀ k' ∈ ks, k' ∈ (remove key k l).map key := by
      intro k' hk'
      obtain ⟨b, hb, rfl⟩ := mem_map.mp (hmem k' (mem_cons_of_mem _ hk'))
      exact mem_map_of_mem (mem_remove.mpr ⟨hb, fun he => hk.1 (he ▸ hk')⟩)
    have := ih h.remove hk.2 hrest
    rw [removeAll, foldl_cons, ← removeAll, length_cons]
    omega

theorem Unique.insertAll (h : Unique key l) (as : List α) : Unique key (insertAll key as l) := by
  induction as generalizing l with
  | nil => exact h
  | cons a as ih => exact ih h.insert

/-- Values with distinct keys end up behind what they did not replace. -/
theorem insertAll_eq {as : List α} (has : Unique key as) (l : List α) :
    insertAll key as l = l.filter (fun b => key b ∉ as.map key) ++ as := by
  induction as generalizing l with
  | nil => simp [insertAll]
  | cons a as ih =>
    have hnodup : key a ∉ as.map key ∧ (as.map key).Nodup := nodup_cons.mp has
    have hstay : [a].filter (fun b => key b ∉ as.map key) = [a] :=
      filter_eq_self.mpr fun b hb => by
        rw [mem_singleton.mp hb]
        exact decide_eq_true hnodup.1
    rw [insertAll, foldl_cons, ← insertAll, ih hnodup.2, insert, filter_append, hstay,
      remove, filter_filter, append_assoc, singleton_append]
    congr 1
    apply filter_congr
    intro b _
    simp only [map_cons, mem_cons, not_or, ne_eq, decide_not, Bool.decide_and, Bool.and_comm]

/-- What is under a key after many insertions of distinct keys. -/
theorem get_insertAll {as : List α} (has : Unique key as) :
    get key k (insertAll key as l) = (get key k as).or (get key k l) := by
  rw [insertAll_eq has, get, find?_append, ← get, ← get, get_filter_key (fun x => x ∉ as.map key)]
  by_cases hk : k ∈ as.map key
  · obtain ⟨b, hb⟩ := isSome_iff_exists.mp (get_isSome_iff.mpr hk)
    rw [if_neg (by simpa using hk), none_or, hb, some_or]
  · rw [if_pos (decide_eq_true hk), get_eq_none_iff_notMem.mpr hk, none_or, or_none]

theorem get_removeAll (ks : List κ) :
    get key k (removeAll key ks l) = if k ∈ ks then none else get key k l := by
  rw [removeAll_eq_filter, get_filter_key (fun x => x ∉ ks)]
  simp only [decide_eq_true_eq, ite_not]

end

end BobbyBrowser.Keyed
