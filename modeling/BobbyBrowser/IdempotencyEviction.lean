/-
What a reservation evicts.

Before the admission test `reserve` runs two loops, one over the bucket of the
principal and one over all buckets. Each is `Evicts`: as long as there is no
room, the least recently used entry that can go goes. Entries that cannot go are
counted alike before and after, so what the test will say is known before the
loops run. They run all the same, and that is where an entry goes in vain.
-/
import BobbyBrowser.IdempotencyInvariant

set_option autoImplicit false

namespace BobbyBrowser.Idempotency

open Ledger Outcomes Transition List

variable {O V : Type} {member : Entry O → Bool} {capacity : ℕ} {old new : List (Entry O)}

/-! ## The loops -/

/-- The members that can be evicted. -/
def evictable_in (member : Entry O → Bool) (e : Entry O) : Bool := member e && entry_is_evictable e

/-- The members that cannot. -/
def pinned_in (member : Entry O → Bool) (e : Entry O) : Bool := member e && !entry_is_evictable e

/-- Evicting one by one: while `capacity` members are there, one of the least recently used of
those that can be evicted goes. -/
inductive Evicts (member : Entry O → Bool) (capacity : ℕ) : List (Entry O) → List (Entry O) → Prop
  | stop (entries : List (Entry O)) : Evicts member capacity entries entries
  | evict {before after left : List (Entry O)} {m : Entry O}
      (full : capacity ≤ (before ++ m :: after).countP member)
      (goes : evictable_in member m = true)
      (oldest : ∀ e ∈ before ++ after, evictable_in member e = true → m.last_used ≤ e.last_used)
      (rest : Evicts member capacity (before ++ after) left) :
    Evicts member capacity (before ++ m :: after) left

namespace Evicts

variable (h : Evicts member capacity old new)

include h

theorem sublist : new.Sublist old := by
  induction h with
  | stop => exact .refl _
  | evict _ _ _ _ ih => exact ih.trans ((sublist_cons_self _ _).append_left _)

/-- What is no evictable member is counted alike before and after. -/
theorem countP_eq {p : Entry O → Bool}
    (hp : ∀ e, evictable_in member e = true → p e = false) : new.countP p = old.countP p := by
  induction h with
  | stop => rfl
  | evict _ goes _ _ ih =>
    rw [ih, countP_append, countP_append, countP_cons_of_neg (by simp [hp _ goes])]

theorem countP_pinned (p : Entry O → Bool) : new.countP (pinned_in p) = old.countP (pinned_in p) :=
  h.countP_eq fun e he => by simp [pinned_in, (Bool.and_eq_true_iff.mp he).2]

/-- No more go than are needed: with one more there would be no room. -/
theorem needed : new = old ∨ capacity ≤ new.countP member + 1 := by
  induction h with
  | stop => exact .inl rfl
  | evict full goes _ _ ih =>
    rcases ih with rfl | hfull
    · right
      rw [countP_append, countP_cons_of_pos (Bool.and_eq_true_iff.mp goes).1] at full
      rw [countP_append]
      omega
    · exact .inr hfull

/-- Nothing goes when there is room, or nothing can go. -/
theorem eq_of_room
    (hroom : old.countP member < capacity ∨ old.countP (evictable_in member) = 0) : new = old := by
  cases h with
  | stop => rfl
  | evict full goes =>
    rw [countP_eq_zero] at hroom
    rcases hroom with hroom | hnone
    · omega
    · exact absurd goes (hnone _ (by simp))

end Evicts

/-- The loop evicts until there is room, or nothing is left to evict. -/
theorem make_room_evicts (member : Entry O → Bool) (capacity fuel : ℕ) (state : StoreState O)
    (hfuel : state.entries.length ≤ fuel) :
    let left := (make_room member capacity fuel state).entries
    Evicts member capacity state.entries left ∧
      (left.countP member < capacity ∨ left.countP (evictable_in member) = 0) := by
  induction fuel generalizing state with
  | zero =>
    have hnil : state.entries = [] := length_eq_zero_iff.mp (by omega)
    exact ⟨.stop _, .inr (by simp [make_room, hnil])⟩
  | succ fuel ih =>
    rw [make_room]
    split
    · exact ⟨.stop _, .inl ‹_›⟩
    rename_i hfull
    cases hr : remove_oldest_evictable member state.entries with
    | none =>
      refine ⟨.stop _, .inr ?_⟩
      rw [countP_eq_zero]
      unfold remove_oldest_evictable at hr
      split at hr
      · rename_i hm
        rw [oldest_eq_argmin, argmin_eq_none] at hm
        exact filter_eq_nil_iff.mp hm
      · cases hr
    | some r =>
      obtain ⟨k, entries'⟩ := r
      obtain ⟨before, after, m, hold, rfl, -, hmember, hevict, holdest⟩ :=
        remove_oldest_evictable_spec hr
      rw [hold] at hfull hfuel holdest ⊢
      obtain ⟨hrest, hdone⟩ := ih
        { state with entries := before ++ after, dirty := mark k state.dirty }
        (by simp at hfuel ⊢; omega)
      refine ⟨.evict (by omega) (by simp [evictable_in, hmember, hevict]) (fun e he hgoes => ?_)
        hrest, hdone⟩
      obtain ⟨hmember', hevict'⟩ := Bool.and_eq_true_iff.mp hgoes
      exact holdest e (by simp at he ⊢; tauto) hmember' hevict'

/-- A member can be evicted, or it cannot. -/
theorem countP_member (member : Entry O → Bool) (entries : List (Entry O)) :
    entries.countP member =
      entries.countP (evictable_in member) + entries.countP (pinned_in member) := by
  rw [countP_eq_countP_filter_add entries member entry_is_evictable, countP_filter, countP_filter]
  rfl

/-! ## The admission test -/

/-- The new entry can be admitted beside these. -/
def Admits (config : Config) (principal : PrincipalId) (entries : List (Entry O)) : Prop :=
  entries.countP (in_bucket principal) < config.per_principal_capacity ∧
    entries.length < config.global_capacity

/-- The loops of a reservation, from the unexpired entries `old` over `own`, where the bucket of
the principal is done with, to `new`. -/
structure MakesSpace (config : Config) (principal : PrincipalId) (old own new : List (Entry O)) :
    Prop where
  bucket : Evicts (in_bucket principal) config.per_principal_capacity old own
  bucket_done : own.countP (in_bucket principal) < config.per_principal_capacity ∨
    own.countP (evictable_in (in_bucket principal)) = 0
  total : Evicts (fun _ => true) config.global_capacity own new
  total_done : new.length < config.global_capacity ∨ new.countP (evictable_in fun _ => true) = 0

/-- What a reservation evicts: first from the principal's own bucket, then from all, each until
there is room or nothing is left to evict. -/
theorem make_space_makes (store : Store O) (request : Request) (now : Instant) :
    ∃ own, MakesSpace store.config request.principal_id (cleanup_expired store.state now).entries
      own (make_space store request now).entries := by
  obtain ⟨hbucket, hbucket_done⟩ := make_room_evicts (in_bucket request.principal_id)
    store.config.per_principal_capacity _ (cleanup_expired store.state now) le_rfl
  obtain ⟨htotal, htotal_done⟩ := make_room_evicts (fun _ => true) store.config.global_capacity _
    (make_principal_room (cleanup_expired store.state now) request.principal_id
      store.config.per_principal_capacity) le_rfl
  rw [countP_true] at htotal_done
  exact ⟨_, hbucket, hbucket_done, htotal, htotal_done⟩

namespace MakesSpace

variable {config : Config} {principal : PrincipalId} {own : List (Entry O)}

variable (h : MakesSpace config principal old own new)

include h

/-- The outcome of the test depends on what cannot be evicted, and on nothing else. -/
theorem admits_iff :
    Admits config principal new ↔
      old.countP (pinned_in (in_bucket principal)) < config.per_principal_capacity ∧
        old.countP (pinned_in fun _ => true) < config.global_capacity := by
  have hbucket := h.bucket.countP_pinned (in_bucket principal)
  have hbucket' := h.total.countP_pinned (in_bucket principal)
  have htotal := (h.total.countP_pinned fun _ => true).trans (h.bucket.countP_pinned fun _ => true)
  have hown := countP_member (in_bucket principal) own
  have hnew := countP_member (in_bucket principal) new
  have hall := countP_member (fun _ => true) new
  have hle := h.total.sublist.countP_le (p := in_bucket principal)
  rw [countP_true] at hall
  have hdone := h.bucket_done
  have hdone' := h.total_done
  unfold Admits
  omega

/-- Nothing is evicted when there is room already, or nothing can be. -/
theorem eq_iff :
    new = old ↔
      (old.countP (in_bucket principal) < config.per_principal_capacity ∨
        old.countP (evictable_in (in_bucket principal)) = 0) ∧
      (old.length < config.global_capacity ∨ old.countP (evictable_in fun _ => true) = 0) := by
  constructor
  · intro heq
    have hown : own = old := h.bucket.sublist.antisymm (heq ▸ h.total.sublist)
    exact ⟨hown ▸ h.bucket_done, heq ▸ h.total_done⟩
  · rintro ⟨hbucket, htotal⟩
    obtain rfl := h.bucket.eq_of_room hbucket
    exact h.total.eq_of_room (by rwa [countP_true])

/-- No more is evicted than the new entry needs. -/
theorem maximal {more : List (Entry O)}
    (hsub : more.Sublist old) (hadmits : Admits config principal more) :
    more.length ≤ new.length := by
  obtain ⟨hbucket, htotal⟩ := hadmits
  rcases h.total.needed with rfl | hfull
  · rcases h.bucket.needed with rfl | hfull
    · exact hsub.length_le
    · -- outside the bucket nothing was evicted
      have hothers := h.bucket.countP_eq (p := fun e => !in_bucket principal e)
        fun e he => by simp [(Bool.and_eq_true_iff.mp he).1]
      have hle := hsub.countP_le (p := fun e => !in_bucket principal e)
      have hmore := length_eq_countP_add_countP (in_bucket principal) (l := more)
      have hnew := length_eq_countP_add_countP (in_bucket principal) (l := new)
      simp only [Bool.not_eq_true, Bool.decide_eq_false] at hmore hnew
      omega
  · rw [countP_true] at hfull
    omega

end MakesSpace

/-- A reservation that will be refused finds nothing to evict: its bucket has room or nothing that
can go, and so has the store. -/
def SparesOnRefusal (config : Config) (principal : PrincipalId) (entries : List (Entry O)) : Prop :=
  config.per_principal_capacity ≤ entries.countP (pinned_in (in_bucket principal)) ∨
      config.global_capacity ≤ entries.countP (pinned_in fun _ => true) →
    (entries.countP (in_bucket principal) < config.per_principal_capacity ∨
      entries.countP (evictable_in (in_bucket principal)) = 0) ∧
    (entries.length < config.global_capacity ∨ entries.countP (evictable_in fun _ => true) = 0)

theorem MakesSpace.spares_iff {config : Config} {principal : PrincipalId} {own : List (Entry O)}
    (h : MakesSpace config principal old own new) :
    SparesOnRefusal config principal old ↔ (¬ Admits config principal new → new = old) := by
  rw [SparesOnRefusal, h.admits_iff, h.eq_iff, not_and_or, not_lt, not_lt]

/-- Taking out what a lookup found and filing it again leaves the same keys. -/
theorem refile_keys {k : Key} {e e' : Entry O} (hfind : find_entry k old = some e)
    (hk : e'.identity = e.identity) :
    ((remove_first k old ++ [e']).map Entry.identity).Perm (old.map Entry.identity) := by
  have hek : e.identity = k := Keyed.key_of_get hfind
  obtain ⟨a, before, after, -, hak, hold, hrest⟩ := exists_of_eraseP (Keyed.mem_of_get hfind)
    (p := fun e => e.identity = k) (by simpa using hek)
  have hsame : e'.identity = a.identity := by
    rw [hk, hek]
    exact (of_decide_eq_true hak).symm
  rw [remove_first, hrest, hold]
  simp only [map_append, map_cons, map_nil, append_assoc, hsame]
  exact (perm_append_singleton _ _).append_left _

variable [RetainedOutcome O V]

/-- The first section of `reserve` drops no unexpired entry: it only touches the one it finds. -/
theorem look_keys (state : StoreState O) (request : Request) (now : Instant) :
    ((look state request now).1.entries.map Entry.identity).Perm
      ((cleanup_expired state now).entries.map Entry.identity) := by
  simp only [look]
  split
  · exact .refl _
  rename_i e hfind
  split
  · exact refile_keys hfind rfl
  · split <;> exact refile_keys hfind rfl

/-- **What a reservation evicts.** The first section drops no unexpired entry. The second one, when
it grants the reservation, evicts in the bucket and then in the store, the least recently used
first and only as long as there is no room. When it refuses, it drops nothing in all and only the
states in which it has nothing to evict. -/
theorem reserve_evicts_only_for_room_iff (C : Codec V) (store : Store O) (disk : Disk)
    (request : Request) (now : Instant) (channel : ChannelId) (fault : Fault) :
    let unexpired := (cleanup_expired store.state now).entries
    let result := acquire C store disk request now channel fault
    (((look store.state request now).1.entries.map Entry.identity).Perm
        (unexpired.map Entry.identity) ∧
      (result.1 = .failed (resource_exhausted_error request.correlation_id) →
        result.2.1.state.entries = unexpired) ∧
      ∀ permit, result.1 = .granted permit →
        ∃ own kept : List (Entry O),
          Evicts (in_bucket request.principal_id) store.config.per_principal_capacity
            unexpired own ∧
          Evicts (fun _ => true) store.config.global_capacity own kept ∧
          (∃ generation, result.2.1.state.entries = kept ++ [request.entry generation channel]) ∧
          ∀ more : List (Entry O), more.Sublist unexpired →
            Admits store.config request.principal_id more → more.length ≤ kept.length) ↔
    (store.writable = true → find_entry request.identity unexpired = none →
      SparesOnRefusal store.config request.principal_id unexpired) := by
  intro unexpired result
  obtain ⟨own, hspace⟩ := make_space_makes store request now
  rw [hspace.spares_iff, and_iff_right (look_keys store.state request now)]
  rcases acquire_cases C store disk request now channel fault with
    ⟨hw, hr⟩ | ⟨-, hsome, hr⟩ | ⟨hw, hnone, hfull, hr⟩ | ⟨hw, hnone, hp, ht, hpersists⟩
  · have hr : result = _ := hr
    simp [hr, hw, unwritable_error, unresolved_error, resource_exhausted_error]
  · have hr : result = _ := hr
    have hne : find_entry request.identity unexpired ≠ none := Option.isSome_iff_ne_none.mp hsome
    simp [hr, hne]
  · have hr : result = _ := hr
    have hnone : find_entry request.identity unexpired = none := hnone
    have hrefused : ¬ Admits store.config request.principal_id
        (make_space store request now).entries := by
      rintro ⟨hp, ht⟩
      exact hfull.elim (not_le.mpr hp) (not_le.mpr ht)
    simp [hr, hw, hnone, hrefused, unexpired]
  · refine iff_of_true ⟨fun hrefused => ?_, fun permit hgranted => ?_⟩
      fun _ _ hrefused => absurd ⟨hp, ht⟩ hrefused
    · rcases hpersists.entries with ⟨hwon, -⟩ | ⟨hlost, -⟩
      · cases hwon.symm.trans hrefused
      · cases hlost.symm.trans hrefused
    · rcases hpersists.entries with ⟨-, -, hentries⟩ | ⟨hlost, -⟩
      · exact ⟨own, _, hspace.bucket, hspace.total, ⟨_, hentries⟩, fun _ => hspace.maximal⟩
      · cases hlost.symm.trans hgranted

/-- A store in memory with room for two, one for each principal: a completed command of the second
principal is in it, and a reservation of the first one. -/
def full_store : Option (World (CommandOutcome Unit)) :=
  run (step command_codec) (World.start small_config ⟨none, []⟩ 0)
    [.reserve 0 { sample_request with principal_id := 1 } 0, .look 0, .acquire 0 .none,
      .finish 0 (.completed 7 []) 0, .finish_section 0 .none,
      .reserve 1 sample_request 0, .look 1, .acquire 1 .none, .reserve 2 other_request 0, .look 2]

/-- **A refused reservation evicts all the same.** The first principal asks for a second key. Its
bucket is full of what cannot go, so it is refused, after the outcome of the second principal went
to make room in the store. -/
theorem refused_reservation_evicts :
    ∃ w, full_store = some w ∧
      let result := acquire command_codec w.store w.disk other_request 0 w.next_channel .none
      result.1 = .failed (resource_exhausted_error other_request.correlation_id) ∧
      ∃ e ∈ w.store.state.entries, e.expired 0 = false ∧ e.principal_id = 1 ∧
        e.identity ∉ result.2.1.state.entries.map Entry.identity :=
  ⟨_, rfl, rfl, _, .head _, rfl, rfl, by decide +kernel⟩

end BobbyBrowser.Idempotency
