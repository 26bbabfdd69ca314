/-
Ranking a list by a key.

`ranked` puts the elements of a list in the order of a key that no two of them
share. What a caller asks of it is which element stands at a place, and the
answer does not need the sort: the element at place `k` is the one that exactly
`k` others come before. `place` counts those over the list as it was given.
-/
import Mathlib.Data.List.Sort

set_option autoImplicit false

namespace BobbyBrowser.Ranking

open List

variable {α κ : Type*} [LinearOrder κ] (key : α → κ)

/-- The elements in the order of their keys. -/
def ranked (l : List α) : List α := l.insertionSort fun a b => key a ≤ key b

/-- How many elements come before `a`. -/
def place (l : List α) (a : α) : ℕ := l.countP fun b => key b < key a

variable {key}

section Ranked

variable {l : List α} {a : α} {k : ℕ}

theorem ranked_perm (l : List α) : (ranked key l).Perm l := perm_insertionSort _ l

@[simp] theorem mem_ranked : a ∈ ranked key l ↔ a ∈ l := (ranked_perm l).mem_iff

@[simp] theorem length_ranked : (ranked key l).length = l.length := (ranked_perm l).length_eq

@[simp] theorem ranked_eq_nil : ranked key l = [] ↔ l = [] := by
  rw [← length_eq_zero_iff, length_ranked, length_eq_zero_iff]

/-- A ranked list ascends strictly. -/
theorem pairwise_ranked (hl : (l.map key).Nodup) :
    (ranked key l).Pairwise fun a b => key a < key b := by
  have hle : (ranked key l).Pairwise fun a b => key a ≤ key b := by
    have : IsTrans α fun a b => key a ≤ key b := ⟨fun _ _ _ => le_trans⟩
    have : Std.Total fun a b : α => key a ≤ key b := ⟨fun a b => le_total (key a) (key b)⟩
    exact pairwise_insertionSort _ l
  have hne : (ranked key l).Pairwise fun a b => key a ≠ key b :=
    pairwise_map.mp (((ranked_perm l).map key).nodup_iff.mpr hl)
  exact (hle.and hne).imp fun h => lt_of_le_of_ne h.1 h.2

/-- Elements of one key keep their order. -/
theorem filter_ranked {p : α → Bool} (h : ∀ a b, p a = true → p b = true → key a = key b) :
    (ranked key l).filter p = l.filter p := by
  have htied : (l.filter p).Pairwise fun a b => key a ≤ key b :=
    pairwise_of_forall_mem_list fun a ha b hb =>
      (h a b (of_mem_filter ha) (of_mem_filter hb)).le
  have hsub := (sublist_insertionSort htied filter_sublist).filter p
  rw [filter_filter, funext fun a => Bool.and_self (p a)] at hsub
  exact (hsub.eq_of_length ((ranked_perm l).filter p).length_eq.symm).symm

/-- In a list that is in order already, an element's place is its index. -/
theorem getElem?_eq_some_iff_place (hl : l.Pairwise fun a b => key a < key b) :
    l[k]? = some a ↔ a ∈ l ∧ place key l a = k := by
  induction l generalizing k with
  | nil => simp
  | cons b l ih =>
    obtain ⟨hb, hl⟩ := pairwise_cons.mp hl
    have hself : place key (b :: l) b = 0 := by
      rw [place, countP_eq_zero]
      intro c hc
      rcases mem_cons.mp hc with rfl | hc
      · simp
      · simpa using (hb c hc).le
    have htail : a ∈ l → place key (b :: l) a = place key l a + 1 := by
      intro ha
      rw [place, countP_cons_of_pos (by simpa using hb a ha), place]
    cases k with
    | zero =>
      rw [getElem?_cons_zero, Option.some.injEq]
      constructor
      · rintro rfl
        exact ⟨mem_cons_self, hself⟩
      rintro ⟨ha, hplace⟩
      rcases mem_cons.mp ha with rfl | ha
      · rfl
      · rw [htail ha] at hplace
        omega
    | succ k =>
      rw [getElem?_cons_succ, ih hl]
      constructor
      · rintro ⟨ha, rfl⟩
        exact ⟨mem_cons_of_mem b ha, htail ha⟩
      rintro ⟨ha, hplace⟩
      rcases mem_cons.mp ha with rfl | ha
      · omega
      · rw [htail ha] at hplace
        exact ⟨ha, by omega⟩

/-- **The element at place `k` is the one that `k` others come before.** -/
theorem getElem?_ranked_eq_some_iff (hl : (l.map key).Nodup) :
    (ranked key l)[k]? = some a ↔ a ∈ l ∧ place key l a = k := by
  rw [getElem?_eq_some_iff_place (pairwise_ranked hl), mem_ranked]
  unfold place
  rw [(ranked_perm l).countP_eq]

/-- Some element stands at each place below the length. -/
theorem exists_place (hl : (l.map key).Nodup) (hk : k < l.length) : ∃ a ∈ l, place key l a = k := by
  have hk' : k < (ranked key l).length := by rwa [length_ranked]
  exact ⟨_, (getElem?_ranked_eq_some_iff hl).mp (getElem?_eq_getElem hk')⟩

theorem mem_of_ranked_eq_cons {rest : List α} (h : ranked key l = a :: rest) : a ∈ l :=
  (ranked_perm l).mem_iff.mp (h ▸ mem_cons_self)

/-- The element in front is before every other one. -/
theorem lt_of_ranked_eq_cons {rest : List α} {b : α} (hl : (l.map key).Nodup)
    (h : ranked key l = a :: rest) (hb : b ∈ l) (hne : b ≠ a) : key a < key b := by
  have hpair := pairwise_ranked hl
  rw [h, pairwise_cons] at hpair
  have hmem : b ∈ a :: rest := h ▸ mem_ranked.mpr hb
  exact hpair.1 b ((mem_cons.mp hmem).resolve_left hne)

end Ranked

end BobbyBrowser.Ranking
