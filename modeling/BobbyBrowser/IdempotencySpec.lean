/-
What the sections of the idempotency store do to its entries.

Every section is a composition of four things: entries whose time has come or
that can be evicted are dropped (`Shrinks`), the entry under one key is replaced
(`Refiled`), filed (`Filed`) or dropped (`Unfiled`). Each of the four says what
is under every key afterwards and how the list of keys moved, which is all that
the invariants of the store depend on.
-/
import BobbyBrowser.IdempotencyRun
import BobbyBrowser.LedgerReplay

set_option autoImplicit false

namespace BobbyBrowser.Idempotency

open Keyed hiding Unique insert
open Jsonl Ledger RetainedOutcome List
open Entry (identity unresolve last_used)

variable {k : Key} {dirty : List Key} {permit : Permit} {O V : Type}

/-! ## The dirty set -/

theorem mem_mark {k' : Key} : k ∈ mark k' dirty ↔ k = k' ∨ k ∈ dirty := by
  unfold mark
  split
  · exact ⟨.inr, fun h => h.elim (fun he => he ▸ ‹k' ∈ dirty›) id⟩
  · exact mem_cons

theorem mem_mark_all {ks : List Key} : k ∈ mark_all ks dirty ↔ k ∈ ks ∨ k ∈ dirty := by
  induction ks with
  | nil => simp [mark_all]
  | cons k' ks ih =>
    rw [mark_all, foldr_cons, mem_mark, ← mark_all, ih, mem_cons, or_assoc]

theorem nodup_mark (h : dirty.Nodup) : (mark k dirty).Nodup := by
  unfold mark
  split
  · exact h
  · exact nodup_cons.mpr ⟨‹_›, h⟩

theorem nodup_mark_all {ks : List Key} (h : dirty.Nodup) : (mark_all ks dirty).Nodup := by
  induction ks with
  | nil => exact h
  | cons k ks ih => exact nodup_mark ih

/-! ## Changing the entry under one key -/

/-- `e` is now the entry of its key, and nothing else changed. -/
structure Puts (old new : List (Entry O)) (e : Entry O) : Prop where
  here : find_entry e.identity new = some e
  elsewhere : ∀ k, k ≠ e.identity → find_entry k new = find_entry k old

/-- The entry under `e.identity` was replaced by `e`. -/
structure Refiled (old new : List (Entry O)) (e : Entry O) : Prop extends Puts old new e where
  keys : (new.map identity).Perm (old.map identity)

/-- `e` was filed under a key that was absent. -/
structure Filed (old new : List (Entry O)) (e : Entry O) : Prop extends Puts old new e where
  keys : (new.map identity).Perm (e.identity :: old.map identity)

/-- The entry under `k` was dropped. -/
structure Unfiled (old new : List (Entry O)) (k : Key) : Prop where
  keys : (k :: new.map identity).Perm (old.map identity)
  here : find_entry k new = none
  elsewhere : ∀ k', k' ≠ k → find_entry k' new = find_entry k' old

/-- No two entries of a list share a key. -/
abbrev UniqueKeys (entries : List (Entry O)) : Prop := Keyed.Unique identity entries

variable {e : Entry O} {old new : List (Entry O)}

theorem Refiled.unique (h : Refiled old new e)
    (hu : UniqueKeys old) : UniqueKeys new := h.keys.nodup_iff.mpr hu

theorem Filed.unique (h : Filed old new e)
    (hu : UniqueKeys old) (hnone : find_entry e.identity old = none) : UniqueKeys new :=
  h.keys.nodup_iff.mpr (nodup_cons.mpr ⟨get_eq_none_iff_notMem.mp hnone, hu⟩)

theorem Unfiled.unique (h : Unfiled old new k) (hu : UniqueKeys old) : UniqueKeys new :=
  (nodup_cons.mp (h.keys.nodup_iff.mpr hu)).2

variable {p : Entry O → Bool}

section

variable {entries : List (Entry O)}

section

variable (hu : UniqueKeys entries)

include hu

/-- Erasing the first entry of a kind takes it from under its key, if the kind is that key's
alone. -/
theorem unfiled_eraseP (hfind : find_entry k entries = some e) (hp : p e)
    (honly : ∀ e' ∈ entries, p e' = true → e'.identity = k) :
    Unfiled entries (entries.eraseP p) k := by
  obtain ⟨a, before, after, -, ha, rfl, hrest⟩ := exists_of_eraseP (mem_of_get hfind) hp
  obtain rfl := honly a (mem_append_right _ mem_cons_self) ha
  have hkeys : (a.identity :: (before ++ after).map identity).Perm
      ((before ++ a :: after).map identity) := perm_middle.symm.map identity
  rw [hrest]
  refine ⟨hkeys, get_eq_none_iff_notMem.mpr ?_, fun k hk => ?_⟩
  · exact (nodup_cons.mp (hkeys.nodup_iff.mpr hu)).1
  · rw [find_entry, find_entry, Keyed.get, Keyed.get, find?_append, find?_append,
      find?_cons_of_neg (by simpa using hk.symm)]

theorem unfiled_remove_first (hfind : find_entry k entries = some e) :
    Unfiled entries (remove_first k entries) k :=
  unfiled_eraseP hu hfind (by simpa using key_of_get hfind) fun _ _ h => by simpa using h

end

theorem filed_push
    (hnone : find_entry e.identity entries = none) : Filed entries (entries ++ [e]) e := by
  refine ⟨⟨?_, fun k hk => ?_⟩, ?_⟩
  · rw [find_entry, get_append_of_none hnone]
    simp [Keyed.get]
  · rw [find_entry, Keyed.get, find?_append, find?_singleton, if_neg (by simpa using hk.symm),
      Option.or_none]
    rfl
  · rw [map_append, map_singleton]
    exact perm_append_singleton _ _

theorem refiled_touch {e e' : Entry O} (hu : UniqueKeys entries)
    (hfind : find_entry k entries = some e) (hk : e'.identity = k) :
    Refiled entries (remove_first k entries ++ [e']) e' := by
  subst hk
  have hun := unfiled_remove_first hu hfind
  have hfiled := filed_push hun.here
  exact ⟨⟨hfiled.here, fun k hk => (hfiled.elsewhere k hk).trans (hun.elsewhere k hk)⟩,
    hfiled.keys.trans hun.keys⟩

variable {f : Entry O → Entry O}

theorem modify_first_append {before after : List (Entry O)}
    (hbefore : ∀ b ∈ before, ¬ p b = true) (hp : p e) :
    modify_first p f (before ++ e :: after) = before ++ f e :: after := by
  induction before with
  | nil => exact if_pos hp
  | cons b before ih =>
    rw [forall_mem_cons] at hbefore
    rw [cons_append, modify_first, if_neg hbefore.1, ih hbefore.2, cons_append]

/-- Changing the first entry of a kind replaces it under its key. -/
theorem refiled_modify_first (hfind : find_entry k entries = some e)
    (hp : p e) (honly : ∀ e' ∈ entries, p e' = true → e'.identity = k)
    (hf : ∀ e', (f e').identity = e'.identity) :
    Refiled entries (modify_first p f entries) (f e) := by
  have hk : (f e).identity = k := (hf e).trans (key_of_get hfind)
  obtain ⟨hek, before, after, rfl, hbefore⟩ := find?_eq_some_iff_append.mp hfind
  have hno : ∀ b ∈ before, ¬ p b = true := by
    intro b hb hpb
    simpa [honly b (mem_append_left _ hb) hpb] using hbefore b hb
  rw [modify_first_append hno hp]
  refine ⟨⟨?_, fun k' hk' => ?_⟩, by rw [map_append, map_append, map_cons, map_cons, hf]⟩
  · rw [hk]
    exact find?_eq_some_iff_append.mpr ⟨by simpa using hk, before, after, rfl, hbefore⟩
  · rw [find_entry, find_entry, Keyed.get, Keyed.get, find?_append, find?_append,
      find?_cons_of_neg (by simpa using hk'.symm), find?_cons_of_neg]
    rw [← hf]
    simpa using hk'.symm

theorem refiled_unresolve (hfind : find_entry k entries = some e) :
    Refiled entries (modify_first (fun e => e.identity = k) unresolve entries) e.unresolve :=
  refiled_modify_first hfind (by simpa using key_of_get hfind)
    (fun e' _ he' => by simpa using he') fun _ => rfl

/-! ## Dropping entries -/

/-- Entries were dropped, and marked dirty; everything that is not `Gone` is still there. -/
structure Shrinks (Gone : Entry O → Prop) (old new : StoreState O) : Prop where
  sublist : new.entries.Sublist old.entries
  kept : ∀ e ∈ old.entries, e ∈ new.entries ∨ Gone e ∧ e.identity ∈ new.dirty
  dirty : ∀ k ∈ old.dirty, k ∈ new.dirty
  marked : ∀ k ∈ new.dirty, k ∈ old.dirty ∨ k ∈ old.entries.map identity
  nodup : old.dirty.Nodup → new.dirty.Nodup
  sequence : new.sequence = old.sequence

namespace Shrinks

variable {Gone Gone' : Entry O → Prop} {old mid new : StoreState O}

theorem refl (state : StoreState O) : Shrinks Gone state state :=
  ⟨.refl _, fun _ he => .inl he, fun _ hk => hk, fun _ hk => .inl hk, id, rfl⟩

theorem mono (himp : ∀ e, Gone e → Gone' e) (h : Shrinks Gone old new) : Shrinks Gone' old new :=
  ⟨h.sublist, fun e he => (h.kept e he).imp id fun hg => ⟨himp e hg.1, hg.2⟩, h.dirty, h.marked,
    h.nodup, h.sequence⟩

/-- One loss after the other is a loss. -/
theorem trans (h₁ : Shrinks Gone old mid) (h₂ : Shrinks Gone mid new) : Shrinks Gone old new where
  sublist := h₂.sublist.trans h₁.sublist
  kept := by
    intro e he
    rcases h₁.kept e he with hmid | ⟨hgone, hdirty⟩
    · exact h₂.kept e hmid
    · exact .inr ⟨hgone, h₂.dirty _ hdirty⟩
  dirty := fun k hk => h₂.dirty k (h₁.dirty k hk)
  marked := by
    intro k hk
    rcases h₂.marked k hk with hmid | hkey
    · exact h₁.marked k hmid
    · exact .inr ((h₁.sublist.map _).subset hkey)
  nodup := fun h => h₂.nodup (h₁.nodup h)
  sequence := h₂.sequence.trans h₁.sequence

variable (h : Shrinks Gone old new)

include h

section

variable (hu : UniqueKeys old.entries)

include hu

theorem unique : UniqueKeys new.entries := Keyed.Unique.sublist hu h.sublist

theorem find_of_find (hfind : find_entry k new.entries = some e) :
    find_entry k old.entries = some e :=
  hu.get_of_mem (h.sublist.subset (mem_of_get hfind)) (key_of_get hfind)

/-- An entry is still there, or could be dropped and has left its key dirty. -/
theorem find_or_gone (hfind : find_entry k old.entries = some e) :
    find_entry k new.entries = some e ∨
      Gone e ∧ k ∈ new.dirty ∧ find_entry k new.entries = none := by
  by_cases hnew : e ∈ new.entries
  · exact .inl ((h.unique hu).get_of_mem hnew (key_of_get hfind))
  rcases h.kept e (mem_of_get hfind) with hin | ⟨hgone, hdirty⟩
  · exact absurd hin hnew
  refine .inr ⟨hgone, key_of_get hfind ▸ hdirty, ?_⟩
  cases hf : find_entry k new.entries with
  | none => rfl
  | some e' =>
    have he' := h.find_of_find hu hf
    rw [hfind] at he'
    obtain rfl := Option.some.inj he'
    exact absurd (mem_of_get hf) hnew

theorem find_none (hfind : find_entry k old.entries = none) : find_entry k new.entries = none := by
  cases hf : find_entry k new.entries with
  | none => rfl
  | some e => rw [h.find_of_find hu hf] at hfind; cases hfind

end

end Shrinks

/-- Cleaning up drops what has expired. -/
theorem cleanup_expired_shrinks (state : StoreState O) (now : Instant) :
    Shrinks (fun e => e.expired now = true) state (cleanup_expired state now) where
  sublist := filter_sublist
  kept := by
    intro e he
    by_cases hexp : e.expired now = true
    · exact .inr ⟨hexp, mem_mark_all.mpr (.inl (mem_map_of_mem (mem_filter.mpr ⟨he, hexp⟩)))⟩
    · exact .inl (mem_filter.mpr ⟨he, by simpa using hexp⟩)
  dirty := fun k hk => mem_mark_all.mpr (.inr hk)
  marked := by
    intro k hk
    rcases mem_mark_all.mp hk with hk | hk
    · exact .inr ((filter_sublist.map _).subset hk)
    · exact .inl hk
  nodup := nodup_mark_all
  sequence := rfl

end

variable {state : StoreState O}

theorem cleanup_expired_live {now : Instant}
    (he : e ∈ (cleanup_expired state now).entries) : e.expired now = false := by
  simpa using (mem_filter.mp he).2

/-- `min_by_key` takes the first of the least. -/
theorem oldest_eq_argmin (entries : List (Entry O)) :
    oldest entries = entries.argmin last_used := by
  induction entries with
  | nil => rfl
  | cons e es ih =>
    rw [oldest, ih, argmin_cons]
    cases es.argmin last_used <;> rfl

/-- The entry that is evicted is a member that can be, and none of those was used less recently. -/
theorem remove_oldest_evictable_spec {member : Entry O → Bool} {entries entries' : List (Entry O)}
    (h : remove_oldest_evictable member entries = some (k, entries')) :
    ∃ (before after : List (Entry O)) (m : Entry O),
      entries = before ++ m :: after ∧ entries' = before ++ after ∧ m.identity = k ∧
      member m = true ∧ entry_is_evictable m = true ∧
      ∀ e ∈ entries, member e = true → entry_is_evictable e = true → m.last_used ≤ e.last_used := by
  unfold remove_oldest_evictable at h
  split at h
  · cases h
  rename_i m hm
  rw [oldest_eq_argmin] at hm
  obtain ⟨rfl, rfl⟩ := Prod.mk.inj (Option.some.inj h)
  obtain ⟨hmem, hok⟩ := mem_filter.mp (argmin_mem hm)
  obtain ⟨e, before, after, -, hp, rfl, hrest⟩ := exists_of_eraseP hmem
    (p := fun e => member e && entry_is_evictable e && e.last_used = m.last_used
      && e.identity = m.identity) (by simp [hok])
  simp only [Bool.and_eq_true, decide_eq_true_eq] at hp
  obtain ⟨⟨⟨hmember, hevict⟩, hused⟩, hk⟩ := hp
  refine ⟨before, after, e, rfl, hrest, hk, hmember, hevict, fun e' he' hmember' hevict' => ?_⟩
  rw [hused]
  exact le_of_mem_argmin (mem_filter.mpr ⟨he', by simp [hmember', hevict']⟩) hm

/-- Making room drops only what can be evicted, by induction on the fuel. -/
theorem make_room_shrinks (member : Entry O → Bool) (capacity fuel : ℕ) (state : StoreState O) :
    Shrinks (fun e => entry_is_evictable e = true) state (make_room member capacity fuel state) := by
  induction fuel generalizing state with
  | zero => exact .refl state
  | succ fuel ih =>
    rw [make_room]
    split
    · exact .refl state
    cases hr : remove_oldest_evictable member state.entries with
    | none => exact .refl state
    | some r =>
      obtain ⟨k, entries'⟩ := r
      obtain ⟨before, after, m, hold, rfl, rfl, -, hevict, -⟩ := remove_oldest_evictable_spec hr
      refine Shrinks.trans ?_ (ih _)
      exact {
        sublist := hold ▸ (sublist_cons_self m after).append_left before
        kept := by
          intro e he
          rw [hold, mem_append, mem_cons, or_left_comm] at he
          rcases he with rfl | h
          · exact .inr ⟨hevict, mem_mark.mpr (.inl rfl)⟩
          · exact .inl (mem_append.mpr h)
        dirty := fun k' hk' => mem_mark.mpr (.inr hk')
        marked := by
          intro k' hk'
          rcases mem_mark.mp hk' with rfl | h
          · exact .inr (mem_map_of_mem (hold ▸ mem_append_right _ mem_cons_self))
          · exact .inl h
        nodup := nodup_mark
        sequence := rfl }

/-- The entries an acquisition may drop: those whose time has come, and evictable ones. -/
def Droppable (now : Instant) (e : Entry O) : Prop :=
  e.expired now = true ∨ entry_is_evictable e = true

theorem cleanup_expired_droppable (state : StoreState O) (now : Instant) :
    Shrinks (Droppable now) state (cleanup_expired state now) :=
  (cleanup_expired_shrinks state now).mono fun _ => .inl

theorem make_space_shrinks_cleanup (store : Store O) (request : Request) (now : Instant) :
    Shrinks (fun e => entry_is_evictable e = true) (cleanup_expired store.state now)
      (make_space store request now) :=
  (make_room_shrinks _ _ _ _).trans (make_room_shrinks _ _ _ _)

theorem make_space_shrinks (store : Store O) (request : Request) (now : Instant) :
    Shrinks (Droppable now) store.state (make_space store request now) :=
  (cleanup_expired_droppable store.state now).trans
    ((make_space_shrinks_cleanup store request now).mono fun _ => .inr)

/-! ## Persisting -/

variable [RetainedOutcome O V] (C : Codec V)

/-- An entry and what it is recorded as. -/
abbrev RecordedAs (e : Entry O) (d : DurableEntry V) : Prop := durable_entry C e = .ok d

variable {d : DurableEntry V} {es : List (Entry O)} {ds : List (DurableEntry V)}

theorem RecordedAs.fields (h : RecordedAs C e d) :
    d = ⟨e.principal_id, e.key, e.operation, e.canonical_sha256, e.expires_at, e.last_used,
      d.state⟩ := by
  unfold RecordedAs durable_entry at h
  split at h
  · cases h
    rfl
  · cases h
    rfl
  split at h
  · cases h
  split at h
  · cases h
  cases h
  rfl

theorem RecordedAs.identity (h : RecordedAs C e d) : d.identity = e.identity := by
  rw [h.fields]
  rfl

section

variable (h : durable_entries C es = .ok ds)

include h

theorem durable_entries_recorded : List.Forall₂ (RecordedAs C) es ds := by
  induction es generalizing ds with
  | nil =>
    cases h
    exact .nil
  | cons e es ih =>
    rw [durable_entries] at h
    split at h
    · cases h
    rename_i d hd
    split at h
    · cases h
    rename_i ds' hds'
    cases h
    exact .cons hd (ih hds')

theorem durable_entries_get (k : Key) :
    Option.Rel (RecordedAs C) (find_entry k es) (get DurableEntry.identity k ds) := by
  replace h := durable_entries_recorded C h
  induction h with
  | nil => exact .none
  | cons hd _ ih =>
    rw [find_entry, Keyed.get, Keyed.get, find?_cons, find?_cons, hd.identity]
    split
    · exact .some hd
    · exact ih

theorem durable_entries_keys : ds.map DurableEntry.identity = es.map identity := by
  replace h := durable_entries_recorded C h
  induction h with
  | nil => rfl
  | cons hd _ ih => rw [map_cons, map_cons, ih, hd.identity]

theorem durable_entries_mem (hd : d ∈ ds) : ∃ e ∈ es, RecordedAs C e d := by
  replace h := durable_entries_recorded C h
  induction h with
  | nil => cases hd
  | cons hrec _ ih =>
    rcases mem_cons.mp hd with rfl | hd
    · exact ⟨_, mem_cons_self, hrec⟩
    · obtain ⟨e, he, hrec⟩ := ih hd
      exact ⟨e, mem_cons_of_mem _ he, hrec⟩

end

omit [RetainedOutcome O V] in
/-- The entries that are written are those of the dirty keys. -/
theorem find_dirty_entries (state : StoreState O) (k : Key) :
    find_entry k (dirty_entries state)
      = if k ∈ state.dirty then find_entry k state.entries else none := by
  unfold dirty_entries
  induction state.dirty with
  | nil => rfl
  | cons k' ks ih =>
    rw [filterMap_cons]
    by_cases hk : k = k'
    · subst hk
      rw [if_pos mem_cons_self]
      cases hf : find_entry k state.entries with
      | none =>
        rw [hf, ite_self] at ih
        exact ih
      | some e =>
        have hek : e.identity = k := key_of_get hf
        rw [find_entry, Keyed.get, find?_cons, decide_eq_true hek]
    have hmem : k ∈ k' :: ks ↔ k ∈ ks := by simp [hk]
    rw [if_congr hmem rfl rfl]
    cases hf : find_entry k' state.entries with
    | none => exact ih
    | some e =>
      have hek : e.identity ≠ k := fun h => hk (h.symm.trans (key_of_get hf))
      rw [← ih, find_entry, Keyed.get, find?_cons, decide_eq_false hek]
      rfl

omit [RetainedOutcome O V] in
theorem dirty_entries_unique (h : state.dirty.Nodup) : UniqueKeys (dirty_entries state) := by
  have hsub : ((dirty_entries state).map identity).Sublist state.dirty := by
    unfold dirty_entries
    induction state.dirty with
    | nil => exact .refl _
    | cons k ks ih =>
      rw [filterMap_cons]
      cases hf : find_entry k state.entries with
      | none => exact (ih).cons k
      | some e =>
        rw [map_cons, show e.identity = k from key_of_get hf]
        exact ih.cons_cons k
  exact hsub.nodup h

variable {updates : List (DurableEntry V)}

theorem updates_unique
    (hnodup : state.dirty.Nodup) (h : durable_entries C (dirty_entries state) = .ok updates) :
    DistinctKeys updates := by
  rw [DistinctKeys, Keyed.Unique, durable_entries_keys C h]
  exact dirty_entries_unique hnodup

/-- **What an append does to the recorded entries**: a dirty key gets what is in memory, every
other key keeps what it has. -/
theorem next_change_get (hunique : DistinctKeys updates)
    (h : durable_entries C (dirty_entries state) = .ok updates)
    (journal : Journal) (base : List (DurableEntry V)) (k : Key) :
    let recorded := get DurableEntry.identity k
      ((journal.next_change updates (dirty_removes state)).apply base)
    (k ∈ state.dirty → Option.Rel (RecordedAs C) (find_entry k state.entries) recorded) ∧
    (k ∉ state.dirty → recorded = get DurableEntry.identity k base) := by
  have hget := durable_entries_get C h k
  rw [find_dirty_entries] at hget
  have happly : get DurableEntry.identity k
      ((journal.next_change updates (dirty_removes state)).apply base)
        = (get DurableEntry.identity k updates).or
          (if k ∈ dirty_removes state then none else get DurableEntry.identity k base) := by
    rw [Change.apply, Journal.next_change, get_insertAll hunique, get_removeAll]
    congr
  simp only [happly]
  constructor
  · intro hk
    rw [if_pos hk] at hget
    generalize hf : find_entry k state.entries = a at hget ⊢
    generalize get DurableEntry.identity k updates = b at hget ⊢
    cases hget with
    | some hd => exact .some hd
    | none =>
      have hrem : k ∈ dirty_removes state := mem_filter.mpr ⟨hk, by rw [hf]; rfl⟩
      rw [if_pos hrem]
      exact .none
  · intro hk
    rw [if_neg hk] at hget
    have hrem : k ∉ dirty_removes state := fun hm => hk (mem_filter.mp hm).1
    generalize get DurableEntry.identity k updates = b at hget ⊢
    cases hget with
    | none => rw [if_neg hrem, Option.none_or]

theorem dirty_eq_nil (hentries : dirty_entries state = [])
    (hremoves : dirty_removes state = []) : state.dirty = [] := by
  apply eq_nil_iff_forall_not_mem.mpr
  intro k hk
  cases hf : find_entry k state.entries with
  | none =>
    have : k ∈ dirty_removes state := mem_filter.mpr ⟨hk, by rw [hf]; rfl⟩
    rw [hremoves] at this
    cases this
  | some e =>
    have : e ∈ dirty_entries state := mem_filterMap.mpr ⟨k, hk, hf⟩
    rw [hentries] at this
    cases this

/-- **What persisting does to memory**: a success clears the dirty keys, a failure may latch. -/
structure PersistSpec (store : Store O) (result : Except IoError Unit × Store O × Disk) : Prop where
  config : result.2.1.config = store.config
  integrity_issue : result.2.1.integrity_issue = store.integrity_issue
  entries : result.2.1.state.entries = store.state.entries
  sequence : result.2.1.state.sequence = store.state.sequence
  ok : ∀ u, result.1 = .ok u → store.writable = true ∧ result.2.1.writable = true ∧
    result.2.1.state.dirty = []
  error : ∀ e, result.1 = .error e → result.2.1.state = store.state

variable {store : Store O}

theorem Store.writable_iff :
    store.writable = true ↔
      store.integrity_issue = none ∧ (store.config.durable = true → store.failed = false) := by
  unfold Store.writable Store.issue
  cases store.integrity_issue with
  | some issue => simp
  | none => cases store.config.durable <;> cases store.failed <;> simp

theorem Store.settle_spec (hw : store.writable)
    (result : Except IoError Unit × Journal × Disk) : PersistSpec store (store.settle result) := by
  obtain ⟨r, journal, disk⟩ := result
  cases r with
  | ok u =>
    refine ⟨rfl, rfl, rfl, rfl, fun _ _ => ⟨hw, ?_, rfl⟩, nofun⟩
    exact Store.writable_iff.mpr (Store.writable_iff.mp hw)
  | error e => exact ⟨rfl, rfl, rfl, rfl, nofun, fun _ _ => rfl⟩

theorem PersistSpec.refused (store : Store O) (e : IoError) (disk : Disk) :
    PersistSpec store (.error e, store, disk) :=
  ⟨rfl, rfl, rfl, rfl, nofun, fun _ _ => rfl⟩

/-- **Persisting, case by case**: refused, nothing to do, a checkpoint, or an append. -/
theorem persist_locked_cases (store : Store O) (disk : Disk) (fault : Fault) :
    let result := persist_locked C store disk fault
    (∃ e, result = (.error e, store, disk)) ∨
    (store.writable = true ∧ (store.config.durable = true → store.state.dirty = []) ∧
      result = (.ok (), { store with state := { store.state with dirty := [] } }, disk)) ∨
    (store.writable = true ∧ store.config.durable = true ∧
      store.journal.needs_checkpoint = true ∧
      ∃ entries, durable_entries C store.state.entries = .ok entries ∧
        result = store.settle (store.journal.checkpoint C disk entries fault)) ∨
    (store.writable = true ∧ store.config.durable = true ∧
      store.journal.needs_checkpoint = false ∧
      ∃ updates, durable_entries C (dirty_entries store.state) = .ok updates ∧ result = store.settle
          (store.journal.append C disk updates (dirty_removes store.state) fault)) := by
  simp only [persist_locked]
  split
  · exact .inl ⟨_, rfl⟩
  rename_i hissue
  have hw : store.writable = true := by
    rw [Store.writable, ← Option.not_isSome, Bool.not_eq_true']
    exact Bool.eq_false_iff.mpr hissue
  split
  · rename_i hmem
    exact .inr (.inl ⟨hw, fun hd => by simp [hd] at hmem, rfl⟩)
  rename_i hdurable
  have hdurable : store.config.durable = true := by simpa using hdurable
  split
  · rename_i hneeds
    split
    · exact .inl ⟨_, rfl⟩
    · exact .inr (.inr (.inl ⟨hw, hdurable, hneeds, _, ‹_›, rfl⟩))
  rename_i hneeds
  split
  · exact .inl ⟨_, rfl⟩
  rename_i updates hupdates
  split
  · -- nothing is dirty, so there is nothing to write
    rename_i hempty
    have hrecorded := durable_entries_recorded C hupdates
    rw [hempty.1, forall₂_nil_right_iff] at hrecorded
    have hdirty := dirty_eq_nil hrecorded hempty.2
    refine .inr (.inl ⟨hw, fun _ => hdirty, ?_⟩)
    rw [← hdirty]
  · exact .inr (.inr (.inr ⟨hw, hdurable, Bool.eq_false_iff.mpr hneeds, updates, hupdates, rfl⟩))

theorem persist_locked_refused (store : Store O) (hw : store.writable = false) (disk : Disk)
    (fault : Fault) : ∃ e, persist_locked C store disk fault = (.error e, store, disk) := by
  rcases persist_locked_cases C store disk fault with h | ⟨hw', -⟩ | ⟨hw', -⟩ | ⟨hw', -⟩
  · exact h
  all_goals
    rw [hw] at hw'
    cases hw'

theorem persist_locked_spec (store : Store O) (disk : Disk) (fault : Fault) :
    PersistSpec store (persist_locked C store disk fault) := by
  rcases persist_locked_cases C store disk fault with
    ⟨e, h⟩ | ⟨hw, -, h⟩ | ⟨hw, -, -, entries, -, h⟩ | ⟨hw, -, -, updates, -, h⟩
  · rw [h]
    exact .refused store _ disk
  · rw [h]
    exact ⟨rfl, rfl, rfl, rfl, fun _ _ => ⟨hw, hw, rfl⟩, nofun⟩
  · rw [h]
    exact Store.settle_spec hw _
  · rw [h]
    exact Store.settle_spec hw _

/-- **A section that persists a state**: it leaves that state and answers `won` on a success, and it
leaves other entries and answers `lost` on a failure. -/
inductive Persists (store : Store O) (disk : Disk) (fault : Fault) (state : StoreState O) {α : Type}
    (won lost : α) (fallback : List (Entry O) → List (Entry O)) : α × Store O × Disk → Prop
  | ok {store' : Store O} {disk' : Disk}
      (h : persist_locked C { store with state := state } disk fault = (.ok (), store', disk')) :
    Persists store disk fault state won lost fallback (won, store', disk')
  | error {e : IoError} {store' : Store O} {disk' : Disk}
      (h : persist_locked C { store with state := state } disk fault = (.error e, store', disk')) :
    Persists store disk fault state won lost fallback
      (lost, { store' with state := { store'.state with entries := fallback store'.state.entries } },
        disk')

section

variable {C} {disk : Disk} {fault : Fault} {state : StoreState O} {α : Type} {won lost : α}
  {fallback : List (Entry O) → List (Entry O)} {result : α × Store O × Disk}

variable (h : Persists C store disk fault state won lost fallback result)

include h

theorem Persists.config : result.2.1.config = store.config := by
  have hspec := persist_locked_spec C { store with state := state } disk fault
  cases h with
  | ok hp | error hp =>
    rw [hp] at hspec
    exact hspec.config

theorem Persists.entries :
    (result.1 = won ∧ result.2.1.writable = true ∧ result.2.1.state.entries = state.entries) ∨
      result.1 = lost ∧ result.2.1.state.entries = fallback state.entries := by
  have hspec := persist_locked_spec C { store with state := state } disk fault
  cases h with
  | ok hp =>
    rw [hp] at hspec
    exact .inl ⟨rfl, (hspec.ok () rfl).2.1, hspec.entries⟩
  | error hp =>
    rw [hp] at hspec
    exact .inr ⟨rfl, congrArg fallback hspec.entries⟩

theorem Persists.refused
    (hw : store.writable = false) : result.2.1.writable = false ∧ result.2.2 = disk := by
  obtain ⟨e, hr⟩ := persist_locked_refused C { store with state := state } hw disk fault
  cases h with
  | ok hp => cases hr.symm.trans hp
  | error hp =>
    cases hr.symm.trans hp
    exact ⟨hw, rfl⟩

end

/-! ## The sections of `reserve` -/

/-- An entry after a lookup touched it. -/
def Entry.touch (e : Entry O) (sequence : ℕ) : Entry O := { e with last_used := sequence }

/-- **The first section of `reserve`**, case by case. -/
theorem look_cases (state : StoreState O) (request : Request) (now : Instant)
    (hu : UniqueKeys state.entries) :
    let cleaned := cleanup_expired state now
    let sequence := wrapping_succ cleaned.sequence
    let result := look state request now
    (find_entry request.identity cleaned.entries = none ∧
      result = ({ cleaned with sequence := sequence }, .absent)) ∨
    (∃ e, find_entry request.identity cleaned.entries = some e ∧
      (e.operation ≠ request.operation ∨ e.canonical_sha256 ≠ request.canonical_sha256) ∧
      Refiled cleaned.entries result.1.entries e ∧ result.1.sequence = sequence ∧
      result.1.dirty = cleaned.dirty ∧
      result.2 = .failed (if e.state.is_uncertain then unresolved_error request.correlation_id
        else conflict_error request.correlation_id)) ∨
    (∃ e, find_entry request.identity cleaned.entries = some e ∧
      e.operation = request.operation ∧ e.canonical_sha256 = request.canonical_sha256 ∧
      Refiled cleaned.entries result.1.entries (e.touch sequence) ∧
      result.1.sequence = sequence ∧
      result.1.dirty = mark request.identity cleaned.dirty ∧
      result.2 = match e.state with
        | .reserved _ changed => .wait changed
        | .retained outcome _ => .replay outcome
        | .unresolved => .failed (unresolved_error request.correlation_id)) := by
  have hu' := (cleanup_expired_shrinks state now).unique hu
  simp only [look]
  cases hfind : find_entry request.identity (cleanup_expired state now).entries with
  | none => exact .inl ⟨rfl, rfl⟩
  | some e =>
    have hk : e.identity = request.identity := key_of_get hfind
    simp only
    split
    · exact .inr (.inl ⟨e, rfl, ‹_›, refiled_touch hu' hfind hk, rfl, rfl, rfl⟩)
    rename_i hsame
    push Not at hsame
    refine .inr (.inr ⟨e, rfl, hsame.1, hsame.2, ?_⟩)
    have href : Refiled (cleanup_expired state now).entries
        (remove_first request.identity (cleanup_expired state now).entries
          ++ [e.touch (wrapping_succ (cleanup_expired state now).sequence)])
        (e.touch (wrapping_succ (cleanup_expired state now).sequence)) :=
      refiled_touch hu' hfind hk
    obtain ⟨principal_id, key, operation, canonical_sha256, estate, expires_at, last_used⟩ := e
    cases estate <;> exact ⟨href, rfl, rfl, rfl⟩

/-- **The second section of `reserve`**, case by case. -/
theorem acquire_cases (store : Store O) (disk : Disk) (request : Request) (now : Instant)
    (channel : ChannelId) (fault : Fault) :
    let cleaned := cleanup_expired store.state now
    let space := make_space store request now
    let filed := filed_state space request channel
    let result := acquire C store disk request now channel fault
    (store.writable = false ∧
      result = (.failed (unwritable_error request.correlation_id), store, disk)) ∨
    (store.writable = true ∧ (find_entry request.identity cleaned.entries).isSome = true ∧
      result = (.occupied, { store with state := cleaned }, disk)) ∨
    (store.writable = true ∧ find_entry request.identity cleaned.entries = none ∧
      (store.config.per_principal_capacity ≤ principal_len space request.principal_id ∨
        store.config.global_capacity ≤ entry_count space) ∧
      result = (.failed (resource_exhausted_error request.correlation_id),
        { store with state := space }, disk)) ∨
    (store.writable = true ∧ find_entry request.identity cleaned.entries = none ∧
      principal_len space request.principal_id < store.config.per_principal_capacity ∧
      entry_count space < store.config.global_capacity ∧
      Persists C store disk fault filed (.granted (request.permit (wrapping_succ space.sequence)))
        (.failed (persistence_error request.correlation_id))
        (modify_first (fun e => e.identity = request.identity) unresolve) result) := by
  simp only [acquire]
  cases hw : store.writable with
  | false => exact .inl ⟨rfl, rfl⟩
  | true =>
    right
    simp only [Bool.not_true, Bool.false_eq_true, if_false]
    cases hfind : find_entry request.identity (cleanup_expired store.state now).entries with
    | some e => exact .inl ⟨trivial, rfl, rfl⟩
    | none =>
      right
      simp only [Option.isSome_none, Bool.false_eq_true, if_false]
      split
      · exact .inl ⟨trivial, trivial, by omega, rfl⟩
      rename_i hroom
      push Not at hroom
      refine .inr ⟨trivial, trivial, hroom.2.2.1, hroom.2.2.2, ?_⟩
      rcases hp : persist_locked C _ disk fault with ⟨r, store', disk'⟩
      cases r with
      | ok u => exact .ok hp
      | error e => exact .error hp

/-! ## The sections of the permit -/

/-- A permit matches a reservation of its own generation only. -/
theorem Permit.matches_reserved (h : permit.matches e) :
    e.operation = permit.operation ∧ e.canonical_sha256 = permit.canonical_sha256 ∧
      ∃ changed, e.state = .reserved permit.generation changed := by
  unfold Permit.matches at h
  simp only [Bool.and_eq_true, decide_eq_true_eq] at h
  refine ⟨h.1.1, h.1.2, ?_⟩
  cases hs : e.state with
  | reserved generation changed =>
    rw [hs] at h
    obtain rfl : generation = permit.generation := by simpa using h.2
    exact ⟨changed, rfl⟩
  | retained | unresolved =>
    rw [hs] at h
    cases h.2

variable {entry : Entry O}

/-- **The section of `finish_inner`** on the permit's own reservation. -/
theorem finish_section_matched {changed : ChannelId} (disk : Disk) (outcome : O) (now : Instant)
    (fault : Fault) (hfind : find_entry permit.identity store.state.entries = some entry)
    (hmatch : permit.matches entry) (hchannel : entry.state.channel = some changed) :
    let finished := finish_state store permit entry outcome now
    Persists C store disk fault finished
      (.recorded changed (if releases_reservation outcome then .released else .replay outcome))
      (.unrecorded changed (persistence_error permit.correlation_id))
      (unresolve_or_push permit)
      (finish_section C store disk permit outcome now fault) := by
  simp only [finish_section, hfind, hmatch, hchannel]
  rcases hp : persist_locked C _ disk fault with ⟨r, store', disk'⟩
  cases r with
  | ok u => exact .ok hp
  | error e => exact .error hp

/-- The entry a retained outcome leaves. -/
def Entry.retain (e : Entry O) (sequence : ℕ) (expires_at : Option Instant) (outcome : O) :
    Entry O :=
  { e with
    last_used := sequence
    expires_at := expires_at
    state := .retained outcome (safety_relevant outcome) }

section

variable {outcome : O} (now : Instant) (hu : UniqueKeys store.state.entries)
  (hfind : find_entry permit.identity store.state.entries = some entry)

include hu hfind

theorem finish_state_releases
    (hrel : releases_reservation outcome) :
    let state := finish_state store permit entry outcome now
    Unfiled store.state.entries state.entries permit.identity ∧
      state.dirty = mark permit.identity store.state.dirty := by
  simp only [finish_state, hrel, if_true]
  exact ⟨unfiled_remove_first hu hfind, trivial⟩

/-- An outcome that does not release the key is retained under it. -/
theorem finish_state_retains
    (hrel : releases_reservation outcome = false) :
    let state := finish_state store permit entry outcome now
    Refiled store.state.entries state.entries
        (entry.retain state.sequence (expiry store outcome now) outcome) ∧
      state.sequence = wrapping_succ store.state.sequence ∧
      state.dirty = mark permit.identity store.state.dirty := by
  simp only [finish_state, hrel, Bool.false_eq_true, if_false, expiry, Bool.false_or]
  have hk : entry.identity = permit.identity := key_of_get hfind
  exact ⟨refiled_touch hu hfind hk, trivial, trivial⟩

end

/-- The entry of the permit's key becomes unresolved; if there is none, one is pushed. -/
theorem unresolve_or_push_cases (permit : Permit) (entries : List (Entry O)) :
    (∃ e, find_entry permit.identity entries = some e ∧
      Refiled entries (unresolve_or_push permit entries)
        { e with state := .unresolved, expires_at := none }) ∨
    (find_entry permit.identity entries = none ∧
      Filed entries (unresolve_or_push permit entries) permit.unresolved_entry) := by
  unfold unresolve_or_push
  cases hfind : find_entry permit.identity entries with
  | some e =>
    refine .inl ⟨e, rfl, refiled_modify_first hfind ?_ ?_ fun _ => rfl⟩
    · simpa using key_of_get hfind
    · exact fun e' _ h => by simpa using h
  | none =>
    exact .inr ⟨rfl, filed_push hfind⟩

theorem is_mine : (decide (e.identity = permit.identity) && permit.matches e) = true ↔
    e.identity = permit.identity ∧ permit.matches e = true := by simp

/-- The reservation of a permit, found by all of its fields, is the entry of its key. -/
theorem find_mine {entries : List (Entry O)} (hu : UniqueKeys entries)
    (hfind : find_entry permit.identity entries = some entry) (hmatch : permit.matches entry) :
    entries.find? (fun e => decide (e.identity = permit.identity) && permit.matches e)
      = some entry := by
  cases hf : entries.find? (fun e => decide (e.identity = permit.identity) && permit.matches e) with
  | none =>
    have hnot := find?_eq_none.mp hf entry (mem_of_get hfind)
    exact absurd (is_mine.mpr ⟨key_of_get hfind, hmatch⟩) hnot
  | some e =>
    have hmine := find?_some hf
    exact (hu.get_of_mem (mem_of_find?_eq_some hf) (is_mine.mp hmine).1).symm.trans hfind

section

variable (hu : UniqueKeys state.entries)
  (hfind : find_entry permit.identity state.entries = some entry) (hmatch : permit.matches entry)

include hu hfind hmatch

/-- **`abandon_entry`** on the permit's own reservation. -/
theorem abandon_entry_matched :
    let result := abandon_entry state permit
    Unfiled state.entries result.1.entries permit.identity ∧
      result.1.sequence = state.sequence ∧
      result.1.dirty = mark permit.identity state.dirty ∧ result.2 = entry.state.channel := by
  simp only [abandon_entry, find_mine hu hfind hmatch]
  exact ⟨unfiled_eraseP hu hfind (is_mine.mpr ⟨key_of_get hfind, hmatch⟩)
    fun e _ h => (is_mine.mp h).1, trivial, trivial, trivial⟩

/-- **`unresolve_entry`** on the permit's own reservation. -/
theorem unresolve_entry_matched :
    let result := unresolve_entry state permit
    Refiled state.entries result.1.entries entry.unresolve ∧
      result.1.sequence = state.sequence ∧
      result.1.dirty = mark permit.identity state.dirty ∧ result.2 = entry.state.channel := by
  simp only [unresolve_entry, find_mine hu hfind hmatch]
  exact ⟨refiled_modify_first hfind (is_mine.mpr ⟨key_of_get hfind, hmatch⟩)
    (fun e _ h => (is_mine.mp h).1) fun _ => rfl, trivial, trivial, trivial⟩

end

/-- **The end of `abandon_inner`.** -/
theorem abandon_persist_persists (store : Store O) (disk : Disk) (permit : Permit) (fault : Fault) :
    Persists C store disk fault store.state true false
      (· ++ [permit.unresolved_entry]) (abandon_persist C store disk permit fault) := by
  unfold abandon_persist
  rcases hp : persist_locked C store disk fault with ⟨r, store', disk'⟩
  cases r with
  | ok u => exact .ok hp
  | error e => exact .error hp

/-! ## Opening -/

/-- **How a store opens**: not at all, or with what was restored, which is persisted if something
had to change. -/
theorem open_durable_cases (disk : Disk) (resolve : V → Option O)
    (loaded_at validated_at now : Instant) (fault : Fault) :
    let opened := open_journal C loaded_at validated_at disk
    let result := open_durable C disk resolve loaded_at validated_at now fault
    (∃ issue, opened.2 = .error issue ∧
      result = (⟨.open_durable, ⟨[], 0, []⟩, opened.1, false, some issue⟩, disk)) ∨
    (∃ entries, opened.2 = .ok entries ∧
      let store := restored_store resolve now opened.1 entries
      ((live now entries).any (loses_expiry resolve) = false ∧ result = (store, disk)) ∨
      ((live now entries).any (loses_expiry resolve) = true ∧
        ((∃ u store' disk', persist_locked C store disk fault = (.ok u, store', disk') ∧
          result = (store', disk')) ∨
        (∃ e store' disk', persist_locked C store disk fault = (.error e, store', disk') ∧
          result = ({ store' with integrity_issue := some .ledger_write_failed }, disk'))))) := by
  simp only [open_durable]
  cases hopened : (open_journal C loaded_at validated_at disk).2 with
  | error issue => exact .inl ⟨issue, rfl, rfl⟩
  | ok entries =>
    refine .inr ⟨entries, rfl, ?_⟩
    simp only
    cases hlost : (live now entries).any (loses_expiry resolve) with
    | false => exact .inl ⟨rfl, rfl⟩
    | true =>
      refine .inr ⟨rfl, ?_⟩
      rcases hp : persist_locked C _ disk fault with ⟨r, store', disk'⟩
      cases r with
      | ok u => exact .inl ⟨u, store', disk', rfl, rfl⟩
      | error e => exact .inr ⟨e, store', disk', rfl, rfl⟩

variable {entries : List (DurableEntry V)}

section

variable {loaded_at validated_at : Instant} {disk : Disk}
  (h : (open_journal C loaded_at validated_at disk).2 = .ok entries)

include h

/-- The entries a ledger is opened with: none without a file, what it loads otherwise. -/
theorem open_journal_entries :
    (load C loaded_at disk.file = .ok none ∧ entries = []) ∨
    (∃ loaded, load C loaded_at disk.file = .ok (some loaded) ∧ entries = loaded.entries ∧
      validate C validated_at entries = .ok ()) := by
  unfold open_journal at h
  split at h
  · cases h
  · cases h
    exact .inl ⟨‹_›, rfl⟩
  · split at h
    · cases h
    · cases h
      exact .inr ⟨_, ‹_›, rfl, ‹_›⟩

/-- Opening changes nothing about the configuration, and what it validated stays valid. -/
theorem open_journal_valid : validate C validated_at entries = .ok () := by
  rcases open_journal_entries C h with ⟨-, rfl⟩ | ⟨loaded, -, -, hvalid⟩
  · rfl
  · exact hvalid

end

end BobbyBrowser.Idempotency
