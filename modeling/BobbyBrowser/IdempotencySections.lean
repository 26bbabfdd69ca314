/-
What each section of the store does to the entry of one key.

`IdempotencySpec` says what a section does to the list of entries. Here that is
read key by key: under which keys the entry is what it was, and what stands
under the key the section is about. Properties that follow one key through a
run only need these.
-/
import BobbyBrowser.IdempotencyInvariant

set_option autoImplicit false

namespace BobbyBrowser.Idempotency

open Ledger List Option Keyed

variable {O V : Type}

/-! ## Cleaning up and making room -/

variable {state : StoreState O}

/-- Cleaning up drops exactly what has expired. -/
theorem find_cleanup_expired (now : Instant) (hu : UniqueKeys state.entries) (k : Key) :
    find_entry k (cleanup_expired state now).entries
      = (find_entry k state.entries).filter fun e => !e.expired now := by
  have hshrinks := cleanup_expired_shrinks state now
  cases hold : find_entry k state.entries with
  | none => exact hshrinks.find_none hu hold
  | some e =>
    rw [filter_some]
    rcases hshrinks.find_or_gone hu hold with hnew | ⟨hexp, -, hnone⟩
    · rw [hnew, cleanup_expired_live (mem_of_get hnew)]
      rfl
    · rw [hnone, hexp]
      rfl

variable {now : Instant} {k : Key} {e : Entry O}

theorem find_cleanup_of_live (hu : UniqueKeys state.entries)
    (hfind : find_entry k state.entries = some e) (hlive : e.expired now = false) :
    find_entry k (cleanup_expired state now).entries = some e := by
  rw [find_cleanup_expired now hu, hfind, filter_some, hlive]
  rfl

theorem find_of_find_cleanup (hu : UniqueKeys state.entries)
    (hfind : find_entry k (cleanup_expired state now).entries = some e) :
    find_entry k state.entries = some e :=
  (cleanup_expired_shrinks state now).find_of_find hu hfind

variable {store : Store O}

/-- Making space drops only entries that can be evicted. -/
theorem find_make_space (request : Request) (hu : UniqueKeys store.state.entries)
    (hfind : find_entry k (cleanup_expired store.state now).entries = some e) :
    find_entry k (make_space store request now).entries = some e ∨
      find_entry k (make_space store request now).entries = none ∧ entry_is_evictable e = true := by
  have hu' := (cleanup_expired_shrinks store.state now).unique hu
  rcases (make_space_shrinks_cleanup store request now).find_or_gone hu' hfind with
    hnew | ⟨hevict, -, hnone⟩
  · exact .inl hnew
  · exact .inr ⟨hnone, hevict⟩

theorem find_of_find_make_space {request : Request} (hu : UniqueKeys store.state.entries)
    (hfind : find_entry k (make_space store request now).entries = some e) :
    find_entry k store.state.entries = some e :=
  (make_space_shrinks store request now).find_of_find hu hfind

theorem mem_evictions {before after : List (Entry O)} :
    k ∈ evictions before after ↔
      (find_entry k before).isSome = true ∧ find_entry k after = none := by
  unfold evictions
  rw [mem_filter, isNone_iff_eq_none]
  exact and_congr_left' get_isSome_iff.symm

/-! ## What the events are about -/

/-- The event is about this key: who has it, or what happened to its entry. -/
def Event.concerns (k : Key) : Event O → Prop
  | .acquired k' _ _ | .finished k' _ _ _ | .abandoned k' _ | .evicted k' => k' = k
  | .recorded _ | .restored _ _ => False

/-- The event is the end of this reservation, or that something is durable. -/
def Event.ends (k : Key) (c : ChannelId) : Event O → Prop
  | .finished k' c' _ _ | .abandoned k' c' => k' = k ∧ c' = c
  | .recorded _ => True
  | _ => False

theorem Event.ends.not_concerns {event : Event O} {k' : Key} {c : ChannelId}
    (h : event.ends k' c) (hne : k ≠ k') : ¬ event.concerns k := by
  cases event with
  | finished | abandoned => exact fun hk => hne (hk.symm.trans h.1)
  | recorded => exact id
  | _ => exact h.elim

theorem recorded_unconcerned (b : Bool) (changed : Option ChannelId) :
    ∀ event ∈ (if b then changed.toList.map .recorded else [] : List (Event O)),
      ∀ k, ¬ event.concerns k := by
  intro event he k
  split at he
  · obtain ⟨c, -, rfl⟩ := mem_map.mp he
    exact id
  · cases he

theorem restorations_unconcerned (store : Store O) :
    ∀ event ∈ restorations store, ∀ k, ¬ event.concerns k := by
  intro event he k
  obtain ⟨e, -, hevent⟩ := mem_filterMap.mp he
  split at hevent
  · cases hevent
    exact id
  · cases hevent

/-! ## The sections of the permit -/

section

variable [RetainedOutcome O V] (C : Codec V)

variable {permit : Permit} {entry : Entry O}

/-- **A dropped permit of a durable store**: its key is unresolved, every other key keeps its
entry. -/
theorem drop_entry_files
    (hdurable : store.config.durable) (h : SoundEntries store.config store.state.entries)
    (hfind : find_entry permit.identity store.state.entries = some entry)
    (hmatch : permit.matches entry) :
    Puts store.state.entries (drop_entry store permit).1.entries entry.unresolve ∧
      (drop_entry store permit).2 = entry.state.channel := by
  rw [drop_entry, if_pos hdurable]
  obtain ⟨href, -, -, hchannel⟩ := unresolve_entry_matched h.unique hfind hmatch
  exact ⟨href.toPuts, hchannel⟩

variable {disk : Disk}

/-- **A release that is persisted, or not**: what is in memory afterwards was there before, or is
unresolved. -/
theorem abandon_persist_from {fault : Fault}
    (hnone : find_entry permit.identity store.state.entries = none)
    (hfind : find_entry k (abandon_persist C store disk permit fault).2.1.state.entries = some e) :
    find_entry k store.state.entries = some e ∨ e.state = .unresolved := by
  obtain ⟨helsewhere, hhere⟩ := abandon_persist_files C disk fault hnone
  by_cases hk : k = permit.identity
  · subst hk
    rcases hhere with ⟨-, hgone⟩ | ⟨-, hunresolved⟩
    · cases hgone.symm.trans hfind
    · obtain rfl := some.inj (hunresolved.symm.trans hfind)
      exact .inr rfl
  · exact .inl ((helsewhere k hk).symm.trans hfind)

/-! ## Opening -/

/-- **Opening, key by key**: a live entry of the ledger is restored, and nothing is reserved. -/
theorem open_durable_files (resolve : V → Option O) {loaded_at validated_at now : Instant}
    (hnow : validated_at ≤ now) (fault : Fault) {entries : List (DurableEntry V)}
    (hentries : (open_journal C loaded_at validated_at disk).2 = .ok entries) {d : DurableEntry V}
    (hd : d ∈ entries) (hlive : d.expired now = false) :
    find_entry d.identity (restore resolve now entries).entries = some (restore_entry resolve d) ∧
      (open_durable C disk resolve loaded_at validated_at now fault).1.state.entries
        = (restore resolve now entries).entries := by
  have hsound := restore_sound C hnow resolve (open_journal_valid C hentries)
  refine ⟨hsound.unique.get_of_mem ?_ rfl, ?_⟩
  · refine mem_map_of_mem (mem_filter.mpr ⟨hd, ?_⟩)
    rw [hlive]
    rfl
  rcases (open_durable_entries C disk resolve loaded_at validated_at now fault).2 with
    ⟨issue, herror, -⟩ | ⟨entries', hentries', hrestored⟩
  · cases hentries.symm.trans herror
  · obtain rfl := Except.ok.inj (hentries.symm.trans hentries')
    exact hrestored

/-- No entry of a store that was just opened is a reservation. -/
theorem open_durable_unreserved (resolve : V → Option O)
    (loaded_at validated_at now : Instant) (fault : Fault) :
    ∀ e ∈ (open_durable C disk resolve loaded_at validated_at now fault).1.state.entries,
      e.state.channel = none := by
  intro e he
  rcases (open_durable_entries C disk resolve loaded_at validated_at now fault).2 with
    ⟨issue, -, hentries⟩ | ⟨entries, -, hentries⟩ <;> rw [hentries] at he
  · cases he
  · obtain ⟨d, -, rfl⟩ := mem_map.mp he
    exact restore_entry_channel resolve d

/-! ## The configuration -/

/-- A durable store stays durable. -/
theorem step_durable {w w' : World O} {a : Action O V} (h : w.store.config.durable)
    (hs : Sound w) (hstep : step C w a = some w') : w'.store.config.durable = true := by
  cases step_inv C hstep with
  | acquire => exact (congrArg Config.durable (acquire_keeps C _ _ _ _ _ hs.entries).1).trans h
  | @finish_section task permit outcome now fault hopen hlock htask =>
    obtain ⟨entry, hfind, hmatch⟩ := hs.matched _ _ (congrArg Task.permit? htask)
    obtain ⟨changed, hchannel⟩ := isSome_iff_exists.mp (Permit.matches_channel hmatch)
    have hpersists := finish_section_matched C w.disk outcome now fault hfind hmatch hchannel
    exact (congrArg Config.durable hpersists.config).trans h
  | abandon_persist =>
    exact (congrArg Config.durable (abandon_persist_persists C ..).config).trans h
  | reopen hdurable hclosed hloaded hvalidated hnow =>
    exact congrArg Config.durable (open_durable_sound C w.disk _ _ hnow _).1
  | _ => exact h

end

end BobbyBrowser.Idempotency
