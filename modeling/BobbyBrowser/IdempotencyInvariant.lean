/-
The invariant of the idempotency store: whatever the tasks do and in whatever
order, each key has at most one entry, each live permit has its reservation,
and the capacities hold.

`Sound` is the invariant, `Sound.step` its preservation, and
`store_invariant` the result about every run.
-/
import BobbyBrowser.IdempotencySpec
import BobbyBrowser.LedgerWire

set_option autoImplicit false

namespace BobbyBrowser.Idempotency

open Function
open Keyed hiding Unique
open Option hiding map_map
open Ledger RetainedOutcome List
open Transition Outcomes

variable {config : Config} {ks : List Key} {now validated_at : Instant} {permit : Permit}
  {request : Request} {t : ℕ}

variable {O V : Type}

/-! ## Counting keys -/

theorem principal_len_eq (state : StoreState O) (p : PrincipalId) :
    principal_len state p = (state.entries.map Entry.identity).countP fun k => k.1 = p := by
  rw [principal_len, countP_map]
  rfl

theorem entry_count_eq (state : StoreState O) :
    entry_count state = (state.entries.map Entry.identity).length := by
  rw [entry_count, length_map]

/-- The capacities hold of a list of keys. -/
structure Fits (config : Config) (keys : List Key) : Prop where
  principal : ∀ p : PrincipalId, keys.countP (fun k => k.1 = p) ≤ config.per_principal_capacity
  total : keys.length ≤ config.global_capacity

theorem Fits.perm {ks' : List Key} (h : Fits config ks) (hp : ks'.Perm ks) : Fits config ks' :=
  ⟨fun p => hp.countP_eq _ ▸ h.principal p, hp.length_eq ▸ h.total⟩

theorem Fits.sublist {ks' : List Key} (h : Fits config ks)
    (hs : ks'.Sublist ks) : Fits config ks' :=
  ⟨fun p => hs.countP_le.trans (h.principal p), hs.length_le.trans h.total⟩

variable {k : Key}

theorem Fits.cons (h : Fits config ks)
    (hp : ks.countP (fun k' => k'.1 = k.1) < config.per_principal_capacity)
    (ht : ks.length < config.global_capacity) : Fits config (k :: ks) := by
  refine ⟨fun p => ?_, by rw [length_cons]; omega⟩
  rw [countP_cons]
  split
  · rename_i hk
    obtain rfl : k.1 = p := by simpa using hk
    omega
  · exact h.principal p

/-! ## The invariant -/

/-- The keys of the store's entries. -/
abbrev World.keys (w : World O) : List Key := w.store.state.entries.map Entry.identity

/-- Entries in which no reservation expires. -/
def Eternal (entries : List (Entry O)) : Prop :=
  ∀ e ∈ entries, e.state.channel.isSome = true → e.expires_at = none

/-- What the invariant says about entries alone. -/
structure SoundEntries (config : Config) (entries : List (Entry O)) : Prop where
  unique : UniqueKeys entries
  eternal : Eternal entries
  fits : Fits config (entries.map Entry.identity)

/-- The permit has its reservation among the entries. -/
abbrev Permit.Backed (p : Permit) (entries : List (Entry O)) : Prop :=
  ∃ e, find_entry p.identity entries = some e ∧ p.matches e = true

/-- The invariant of the store and its tasks. -/
structure Sound (w : World O) : Prop
    extends entries : SoundEntries w.store.config w.store.state.entries where
  /-- Every live permit has its reservation. -/
  matched : ∀ i p, (w.tasks i).permit? = some p → p.Backed w.store.state.entries
  /-- No two live permits are for one key. -/
  exclusive : ∀ i j p q, (w.tasks i).permit? = some p → (w.tasks j).permit? = some q →
    p.identity = q.identity → i = j
  /-- Between the release of a reservation and its persistence, the mutex is held, the key has no
  entry, and there is room to file it again. -/
  releasing : ∀ i p changed, w.tasks i = .releasing p changed →
    w.lock = some i ∧ find_entry p.identity w.store.state.entries = none ∧
      Fits w.store.config (p.identity :: w.keys)
  /-- A process that has not opened the store runs no task. -/
  closed : w.opened = false → ∀ i, w.tasks i = .idle

variable {w w' : World O}

variable {e : Entry O}

/-- An entry that neither expires nor can be evicted. -/
def Entry.Firm (e : Entry O) : Prop := e.expires_at = none ∧ entry_is_evictable e = false

theorem Eternal.firm {entries : List (Entry O)} (h : Eternal entries)
    (hfind : find_entry k entries = some e) (hres : e.state.channel.isSome) : e.Firm := by
  refine ⟨h e (mem_of_get hfind) hres, ?_⟩
  unfold entry_is_evictable
  cases hs : e.state with
  | retained => rw [hs] at hres; cases hres
  | reserved => rfl
  | unresolved => rfl

theorem Shrinks.find_firm {old new : StoreState O} (h : Shrinks (Droppable now) old new)
    (hu : UniqueKeys old.entries) (hfind : find_entry k old.entries = some e) (hfirm : e.Firm) :
    find_entry k new.entries = some e := by
  refine (h.find_or_gone hu hfind).resolve_right ?_
  rintro ⟨hexp | hevict, -⟩
  · rw [Entry.expired, hfirm.1] at hexp
    cases hexp
  · cases hfirm.2.symm.trans hevict

theorem Permit.matches_channel (h : permit.matches e) : e.state.channel.isSome = true := by
  obtain ⟨-, -, changed, hs⟩ := Permit.matches_reserved h
  rw [hs]
  rfl

/-- The permits there are when a task has moved: the others keep their reservations, and its own
has one for a key that nobody else has. -/
structure Backs (w : World O) (t : ℕ) (task : Task O) (entries : List (Entry O)) : Prop where
  others : ∀ i p, i ≠ t → (w.tasks i).permit? = some p → p.Backed entries
  mine : ∀ p, task.permit? = some p → p.Backed entries ∧
    ∀ i q, i ≠ t → (w.tasks i).permit? = some q → q.identity ≠ p.identity

/-- A step that moves one task keeps the invariant when it keeps what is about the entries and
leaves the others their reservations. A release under way is its own, or is not disturbed. -/
theorem Sound.of_task (h : Sound w) (t : ℕ) (task : Task O)
    (hopen : w'.opened) (htasks : w'.tasks = Function.update w.tasks t task)
    (hentries : SoundEntries w'.store.config w'.store.state.entries)
    (hbacks : Backs w t task w'.store.state.entries)
    (hlock : (∀ i, w.lock = some i → i = t) ∨ w'.store = w.store ∧ w'.lock = w.lock)
    (hreleasing : ∀ p changed, task = .releasing p changed →
      w'.lock = some t ∧ find_entry p.identity w'.store.state.entries = none ∧
        Fits w'.store.config (p.identity :: w'.keys)) : Sound w' where
  entries := hentries
  matched := by
    intro i p hp
    rw [htasks, update_apply] at hp
    split at hp
    · exact (hbacks.mine p hp).1
    · rename_i hi
      exact hbacks.others i p hi hp
  exclusive := by
    intro i j p q hp hq hpq
    rw [htasks, update_apply] at hp hq
    split at hp <;> split at hq <;> rename_i hi hj
    · rw [hi, hj]
    · exact absurd hpq.symm ((hbacks.mine p hp).2 j q hj hq)
    · exact absurd hpq ((hbacks.mine q hq).2 i p hi hp)
    · exact h.exclusive i j p q hp hq hpq
  releasing := by
    intro i p changed hi
    rw [htasks, update_apply] at hi
    split at hi <;> rename_i hit
    · rw [hit]
      exact hreleasing p changed hi
    have hrest := h.releasing i p changed hi
    rcases hlock with hmine | ⟨hstore, hlock⟩
    · exact absurd (hmine i hrest.1) hit
    · rw [World.keys, hstore, hlock]
      exact hrest
  closed := fun hno => absurd hopen (by rw [hno]; exact Bool.false_ne_true)

/-- A step that takes the mutex and gives it back. -/
theorem Sound.of_section (h : Sound w) (hlock : w.lock = none) (t : ℕ)
    (task : Task O) (hopen : w'.opened) (htasks : w'.tasks = Function.update w.tasks t task)
    (hnot : ∀ p changed, task ≠ .releasing p changed)
    (hentries : SoundEntries w'.store.config w'.store.state.entries)
    (hbacks : Backs w t task w'.store.state.entries) : Sound w' :=
  h.of_task t task hopen htasks hentries hbacks (.inl (by rw [hlock]; nofun))
    fun p changed hr => absurd hr (hnot p changed)

theorem Sound.ne_identity (h : Sound w) {i : ℕ} {p : Permit}
    (ht : (w.tasks t).permit? = some permit) (hi : i ≠ t) (hp : (w.tasks i).permit? = some p) :
    p.identity ≠ permit.identity :=
  fun he => hi (h.exclusive i t p permit hp ht he)

/-- A step that only moves a task, between places with the same permit or out of the permit's
life, keeps the invariant. -/
theorem Sound.set_task (h : Sound w) (hopen : w.opened) (t : ℕ)
    (task : Task O) (hpermit : ∀ p, task.permit? = some p → (w.tasks t).permit? = some p)
    (hnot : ∀ p changed, task ≠ .releasing p changed) : Sound (w.set_task t task) :=
  h.of_task t task hopen rfl h.entries ⟨fun i p _ hp => h.matched i p hp,
    fun p hp => ⟨h.matched t p (hpermit p hp), fun _ _ hi hq => h.ne_identity (hpermit p hp) hi hq⟩⟩
    (.inr ⟨rfl, rfl⟩) fun p changed hr => absurd hr (hnot p changed)

/-! ## What each section keeps -/

section

variable {old new : List (Entry O)} {e e₀ : Entry O} {k : Key}

theorem Puts.mem (h : Puts old new e) (hu : UniqueKeys new) (hmem : e₀ ∈ new) :
    e₀ = e ∨ e₀ ∈ old := by
  have hfind := hu.get_of_mem hmem rfl
  by_cases hk : e₀.identity = e.identity
  · rw [hk] at hfind
    exact .inl (some.inj (hfind.symm.trans h.here))
  · exact .inr (mem_of_get ((h.elsewhere _ hk).symm.trans hfind))

theorem Unfiled.mem (h : Unfiled old new k) (hu : UniqueKeys new) (hmem : e₀ ∈ new) : e₀ ∈ old := by
  have hfind := hu.get_of_mem hmem rfl
  by_cases hk : e₀.identity = k
  · rw [hk] at hfind
    exact absurd (hfind.symm.trans h.here) (by simp)
  · exact mem_of_get ((h.elsewhere _ hk).symm.trans hfind)

end

/-- The entries may be in another order and of another age; under each key there is the same. -/
def SameStates (old new : List (Entry O)) : Prop :=
  ∀ k, ∃ used, find_entry k new = (find_entry k old).map (Entry.touch · used)

theorem SameStates.refl (entries : List (Entry O)) : SameStates entries entries := by
  intro k
  cases find_entry k entries with
  | none => exact ⟨0, rfl⟩
  | some e => exact ⟨e.last_used, rfl⟩

variable {new old : List (Entry O)}

theorem SameStates.find (h : SameStates old new)
    (hfind : find_entry k old = some e) : ∃ used, find_entry k new = some (e.touch used) := by
  obtain ⟨used, hused⟩ := h k
  rw [hfind] at hused
  exact ⟨used, hused⟩

theorem SameStates.find_rev (h : SameStates old new) (hfind : find_entry k new = some e) :
    ∃ e₀ used, find_entry k old = some e₀ ∧ e = e₀.touch used := by
  obtain ⟨used, hused⟩ := h k
  rw [hused] at hfind
  obtain ⟨e₀, hfind₀, rfl⟩ := map_eq_some_iff.mp hfind
  exact ⟨e₀, used, hfind₀, rfl⟩

theorem Puts.same_states {e : Entry O} {used : ℕ}
    (h : Puts old new (e.touch used)) (hfind : find_entry e.identity old = some e) :
    SameStates old new := by
  intro k
  by_cases hk : k = e.identity
  · refine ⟨used, ?_⟩
    rw [hk, hfind]
    exact h.here
  · obtain ⟨used, hsame⟩ := SameStates.refl old k
    exact ⟨used, (h.elsewhere k hk).trans hsame⟩

variable {state : StoreState O}

/-- **The first section of `reserve`** cleans up and touches. -/
theorem look_same_states [RetainedOutcome O V] (request : Request)
    (now : Instant) (hu : UniqueKeys state.entries) :
    SameStates (cleanup_expired state now).entries (look state request now).1.entries := by
  rcases look_cases state request now hu with
    ⟨-, hres⟩ | ⟨e, hfind, -, href, -, -, -⟩ | ⟨e, hfind, -, -, href, -, -, -⟩
  · rw [hres]
    exact .refl _
  · have hk : e.identity = request.identity := key_of_get hfind
    have hputs : Puts _ _ (e.touch e.last_used) := href.toPuts
    exact hputs.same_states (by rw [hk]; exact hfind)
  · have hk : e.identity = request.identity := key_of_get hfind
    exact href.toPuts.same_states (by rw [hk]; exact hfind)

/-- A section that leaves every key but the permit's alone leaves the others their reservations. -/
theorem Sound.matched_elsewhere (h : Sound w)
    (ht : (w.tasks t).permit? = some permit) (helsewhere : ∀ k, k ≠ permit.identity →
      find_entry k new = find_entry k w.store.state.entries) :
    ∀ i p, i ≠ t → (w.tasks i).permit? = some p → p.Backed new := by
  intro i p hi hp
  obtain ⟨e, hfind, hmatch⟩ := h.matched i p hp
  exact ⟨e, (helsewhere _ (h.ne_identity ht hi hp)).trans hfind, hmatch⟩

/-- What a section of `reserve` may do to the entries of others: each that is firm is still
there. -/
def KeepsFirm (old new : List (Entry O)) : Prop :=
  ∀ k e, find_entry k old = some e → e.Firm → ∃ used, find_entry k new = some (e.touch used)

theorem KeepsFirm.matched (h : KeepsFirm w.store.state.entries new)
    (hs : Sound w) {i : ℕ} {p : Permit} (hp : (w.tasks i).permit? = some p) : p.Backed new := by
  obtain ⟨e, hfind, hmatch⟩ := hs.matched i p hp
  obtain ⟨used, hused⟩ := h _ e hfind (hs.eternal.firm hfind (Permit.matches_channel hmatch))
  exact ⟨e.touch used, hused, hmatch⟩

variable {Gone : Entry O → Prop}

theorem Shrinks.eternal {old new : StoreState O} (h : Shrinks Gone old new)
    (he : Eternal old.entries) : Eternal new.entries :=
  fun e hm => he e (h.sublist.subset hm)

theorem Puts.eternal (h : Puts old new e) (hu : UniqueKeys new) (he : Eternal old)
    (hnew : e.state.channel.isSome = true → e.expires_at = none) : Eternal new := by
  intro e₀ hm
  rcases h.mem hu hm with rfl | hold
  · exact hnew
  · exact he e₀ hold

theorem soundEntries_nil (config : Config) : SoundEntries config ([] : List (Entry O)) :=
  ⟨nodup_nil, nofun, fun _ => Nat.zero_le _, Nat.zero_le _⟩

theorem SoundEntries.shrinks {old new : StoreState O}
    (h : SoundEntries config old.entries) (hs : Shrinks Gone old new) :
    SoundEntries config new.entries :=
  ⟨hs.unique h.unique, hs.eternal h.eternal, h.fits.sublist (hs.sublist.map _)⟩

section

variable (h : SoundEntries config old)

include h

theorem SoundEntries.refiled (hr : Refiled old new e)
    (he : e.state.channel.isSome = true → e.expires_at = none) : SoundEntries config new :=
  ⟨hr.unique h.unique, hr.eternal (hr.unique h.unique) h.eternal he, h.fits.perm hr.keys⟩

theorem SoundEntries.filed (hf : Filed old new e)
    (hnone : find_entry e.identity old = none)
    (he : e.state.channel.isSome = true → e.expires_at = none)
    (hfits : Fits config (e.identity :: old.map Entry.identity)) : SoundEntries config new :=
  ⟨hf.unique h.unique hnone, hf.eternal (hf.unique h.unique hnone) h.eternal he, hfits.perm hf.keys⟩

theorem SoundEntries.unfiled (hr : Unfiled old new k) : SoundEntries config new :=
  ⟨hr.unique h.unique, fun e hm => h.eternal e (hr.mem (hr.unique h.unique) hm),
    (h.fits.perm hr.keys).sublist (sublist_cons_self _ _)⟩

end

/-- A look keeps the entries in order and drops none that is firm. -/
theorem look_keeps [RetainedOutcome O V] (request : Request) (now : Instant)
    (h : SoundEntries config state.entries) :
    SoundEntries config (look state request now).1.entries ∧
      KeepsFirm state.entries (look state request now).1.entries := by
  have hshrink := cleanup_expired_droppable state now
  have hs := h.shrinks hshrink
  refine ⟨?_, fun k e hfind hfirm =>
    (look_same_states request now h.unique).find (hshrink.find_firm h.unique hfind hfirm)⟩
  rcases look_cases state request now h.unique with
    ⟨-, hres⟩ | ⟨e, hfind, -, href, -, -, -⟩ | ⟨e, hfind, -, -, href, -, -, -⟩
  · rw [hres]
    exact hs
  all_goals exact hs.refiled href (hs.eternal e (mem_of_get hfind))

@[simp] theorem Look.task_permit? (request : Request) (now : Instant) (found : Look O) :
    (found.task request now).permit? = none := by
  cases found <;> rfl

theorem Look.task_ne_releasing (request : Request) (now : Instant) (found : Look O) (p : Permit)
    (changed : Option ChannelId) : found.task request now ≠ .releasing p changed := by
  cases found <;> simp [Look.task]

theorem Sound.look [RetainedOutcome O V] (h : Sound w) (hopen : w.opened)
    (hlock : w.lock = none) (t : ℕ) (request : Request) (now : Instant) : Sound (w.look t request now) := by
  obtain ⟨hsound, hkeep⟩ := look_keeps request now h.entries
  exact h.of_section hlock t _ hopen rfl (Look.task_ne_releasing request now _) hsound
    ⟨fun i p _ hp => hkeep.matched h hp, fun p hp => by rw [Look.task_permit?] at hp; cases hp⟩

theorem Acquisition.task_ne_releasing (request : Request) (now : Instant) (result : Acquisition)
    (p : Permit) (changed : Option ChannelId) :
    (result.task request now : Task O) ≠ .releasing p changed := by
  cases result <;> simp [Acquisition.task]

theorem filed_state_filed (channel : ChannelId)
    (hnone : find_entry request.identity state.entries = none) :
    Filed state.entries (filed_state state request channel).entries
      (request.entry (wrapping_succ state.sequence) channel) :=
  filed_push hnone

variable {store : Store O}

section

variable (h : SoundEntries store.config store.state.entries)
  (hnone : find_entry request.identity (cleanup_expired store.state now).entries = none)

include h hnone

theorem not_firm_of_cleanup
    (hfind : find_entry request.identity store.state.entries = some e) : ¬ e.Firm := by
  intro hfirm
  rw [(cleanup_expired_droppable store.state now).find_firm h.unique hfind hfirm] at hnone
  cases hnone

theorem SoundEntries.make_space_none :
    find_entry request.identity (make_space store request now).entries = none :=
  (make_space_shrinks_cleanup store request now).find_none
    ((cleanup_expired_shrinks store.state now).unique h.unique) hnone

end

/-- A reservation is filed only where there is room, so the capacities hold. -/
theorem filed_state_keeps (channel : ChannelId) (h : SoundEntries store.config store.state.entries)
    (hnone : find_entry request.identity (cleanup_expired store.state now).entries = none)
    (hp : principal_len (make_space store request now) request.principal_id
      < store.config.per_principal_capacity)
    (ht : entry_count (make_space store request now) < store.config.global_capacity) :
    let space := make_space store request now
    let filed := (filed_state space request channel).entries
    Filed space.entries filed (request.entry (wrapping_succ space.sequence) channel) ∧
      SoundEntries store.config filed := by
  have hspace := make_space_shrinks store request now
  have hnone' := h.make_space_none hnone
  have hfiled := filed_state_filed channel hnone'
  have hfits : Fits store.config
      (request.identity :: (make_space store request now).entries.map Entry.identity) := by
    rw [principal_len_eq] at hp
    rw [entry_count_eq] at ht
    exact (h.shrinks hspace).fits.cons hp ht
  exact ⟨hfiled, (h.shrinks hspace).filed hfiled hnone' (fun _ => rfl) hfits⟩

variable [RetainedOutcome O V] (C : Codec V) (disk : Disk)

/-- **The second section of `reserve` where it files its key**: every other key has what making
room left, and the key is reserved when the section grants it and unresolved when it could not
persist. -/
theorem acquire_files (channel : ChannelId) (fault : Fault)
    (h : SoundEntries store.config store.state.entries) (hw : store.writable)
    (hnone : find_entry request.identity (cleanup_expired store.state now).entries = none) :
    let space := make_space store request now
    let result := acquire C store disk request now channel fault
    let new := result.2.1.state.entries
    result.2.1.config = store.config ∧ SoundEntries store.config new ∧
    (∀ k, k ≠ request.identity → find_entry k new = find_entry k space.entries) ∧
    (∀ permit, result.1 = .granted permit →
      permit = request.permit (wrapping_succ space.sequence) ∧ find_entry request.identity new
        = some (request.entry (wrapping_succ space.sequence) channel)) ∧
    (result.1.persists = false → ∀ e, find_entry request.identity new = some e →
      e.state = .unresolved ∧ e.expires_at = none) := by
  have hspace := make_space_shrinks store request now
  have hnone' := h.make_space_none hnone
  intro space result new
  rcases acquire_cases C store disk request now channel fault with
    ⟨hno, -⟩ | ⟨-, hsome, -⟩ | ⟨-, -, -, hres⟩ | ⟨-, -, hp, ht, hpersists⟩
  · rw [hw] at hno
    cases hno
  · rw [hnone] at hsome
    cases hsome
  · rw [show new = _ from congrArg (·.2.1.state.entries) hres, show result = _ from hres]
    refine ⟨rfl, h.shrinks hspace, fun _ _ => rfl, nofun, fun _ e he => ?_⟩
    cases hnone'.symm.trans he
  obtain ⟨hfiled, hsound⟩ := filed_state_keeps channel h hnone hp ht
  have hhere : find_entry request.identity (filed_state space request channel).entries = some _ :=
    hfiled.here
  have href := refiled_unresolve hhere
  refine ⟨hpersists.config, ?_⟩
  rcases hpersists.entries with ⟨hwon, -, hentries⟩ | ⟨hlost, hentries⟩ <;> rw [show new = _ from hentries]
  · refine ⟨hsound, hfiled.elsewhere, fun permit hgranted => ?_, fun hno => ?_⟩
    · exact ⟨(Acquisition.granted.inj (hwon.symm.trans hgranted)).symm, hhere⟩
    · rw [hwon] at hno
      cases hno
  · refine ⟨hsound.refiled href nofun,
      fun k hk => (href.elsewhere k hk).trans (hfiled.elsewhere k hk), fun permit hgranted => ?_,
      fun _ e he => ?_⟩
    · cases hlost.symm.trans hgranted
    · obtain rfl := some.inj (href.here.symm.trans he)
      exact ⟨rfl, rfl⟩

/-- **Acquiring keeps the entries sound** and the firm ones there. -/
theorem acquire_keeps (request : Request) (now : Instant)
    (channel : ChannelId) (fault : Fault) (h : SoundEntries store.config store.state.entries) :
    let result := acquire C store disk request now channel fault
    result.2.1.config = store.config ∧
      SoundEntries store.config result.2.1.state.entries ∧
      KeepsFirm store.state.entries result.2.1.state.entries ∧
      ∀ permit, result.1 = .granted permit → permit.Backed result.2.1.state.entries ∧
        ∀ e, find_entry permit.identity store.state.entries = some e → ¬ e.Firm := by
  have hclean := cleanup_expired_droppable store.state now
  rcases acquire_cases C store disk request now channel fault with
    ⟨-, hres⟩ | ⟨-, -, hres⟩ | ⟨hw, hnone, -⟩ | ⟨hw, hnone, -⟩
  · simp only [hres]
    exact ⟨trivial, h, fun _ _ hfind _ => (SameStates.refl _).find hfind, nofun⟩
  · simp only [hres]
    exact ⟨trivial, h.shrinks hclean, fun _ _ hfind hfirm =>
      (SameStates.refl _).find (hclean.find_firm h.unique hfind hfirm), nofun⟩
  all_goals
    obtain ⟨hconfig, hsound, helsewhere, hgranted, -⟩ :=
      acquire_files C disk channel fault h hw hnone
    refine ⟨hconfig, hsound, fun k e hfind hfirm => ?_, fun permit hpermit => ?_⟩
    · have hne : k ≠ request.identity := by
        rintro rfl
        exact not_firm_of_cleanup h hnone hfind hfirm
      refine (SameStates.refl _).find ((helsewhere k hne).trans ?_)
      exact (make_space_shrinks store request now).find_firm h.unique hfind hfirm
    · obtain ⟨rfl, hhere⟩ := hgranted permit hpermit
      exact ⟨⟨_, hhere, by simp [Permit.matches, Request.permit, Request.entry]⟩,
        fun e hfind => not_firm_of_cleanup h hnone hfind⟩

/-- **An acquisition** keeps the store sound: a permit that it grants is the only one of its key. -/
theorem Sound.acquire (h : Sound w) (hopen : w.opened)
    (hlock : w.lock = none) (t : ℕ) (request : Request) (now : Instant) (fault : Fault) :
    Sound (w.acquire C t request now fault) := by
  obtain ⟨hconfig, hsound, hkeep, hgranted⟩ :=
    acquire_keeps C w.disk request now w.next_channel fault h.entries
  rw [← hconfig] at hsound
  refine h.of_section hlock t _ hopen rfl (Acquisition.task_ne_releasing request now _) hsound
    ⟨fun i p _ hp => hkeep.matched h hp, ?_⟩
  intro p hp
  cases hres : (Idempotency.acquire C w.store w.disk request now w.next_channel fault).1 with
  | failed | occupied =>
    rw [hres] at hp
    cases hp
  | granted permit =>
    rw [hres] at hp
    obtain rfl := some.inj hp
    refine ⟨(hgranted _ hres).1, fun i q _ hq hqp => ?_⟩
    -- a live permit for the key would have kept its reservation there
    obtain ⟨e, hfind, hmatch⟩ := h.matched i q hq
    exact (hgranted _ hres).2 e (hqp ▸ hfind)
      (h.eternal.firm hfind (Permit.matches_channel hmatch))

/-- A finish files its outcome in place of the reservation, or takes the reservation away. -/
theorem finish_state_files {entry : Entry O} (outcome : O)
    (now : Instant) (h : SoundEntries store.config store.state.entries)
    (hfind : find_entry permit.identity store.state.entries = some entry) :
    let new := (finish_state store permit entry outcome now).entries
    SoundEntries store.config new ∧
    (∀ k, k ≠ permit.identity → find_entry k new = find_entry k store.state.entries) ∧
    ((releases_reservation outcome = true ∧ find_entry permit.identity new = none ∧
        Fits store.config (permit.identity :: new.map Entry.identity)) ∨
      releases_reservation outcome = false ∧ ∃ sequence, find_entry permit.identity new
        = some (entry.retain sequence (expiry store outcome now) outcome)) := by
  have hk : entry.identity = permit.identity := key_of_get hfind
  cases hrel : releases_reservation outcome with
  | true =>
    obtain ⟨hun, -⟩ := finish_state_releases now h.unique hfind hrel
    exact ⟨h.unfiled hun, hun.elsewhere, .inl ⟨rfl, hun.here, h.fits.perm hun.keys⟩⟩
  | false =>
    obtain ⟨href, -, -⟩ := finish_state_retains now h.unique hfind hrel
    have hhere := href.here
    rw [show (entry.retain _ _ outcome).identity = permit.identity from hk] at hhere
    exact ⟨h.refiled href nofun, fun k hne => href.elsewhere k fun he => hne (he.trans hk),
      .inr ⟨rfl, _, hhere⟩⟩

/-- **The section of `finish_inner`, key by key**: every other key keeps its entry, and the permit's
key is retained or free when the outcome was recorded and unresolved when it was not. -/
theorem finish_section_files {entry : Entry O} {changed : ChannelId} (outcome : O)
    (now : Instant) (fault : Fault) (h : SoundEntries store.config store.state.entries)
    (hfind : find_entry permit.identity store.state.entries = some entry)
    (hmatch : permit.matches entry) (hchannel : entry.state.channel = some changed) :
    let result := finish_section C store disk permit outcome now fault
    let new := result.2.1.state.entries
    SoundEntries store.config new ∧
    (∀ k, k ≠ permit.identity → find_entry k new = find_entry k store.state.entries) ∧
    ((result.1 = .recorded changed
        (if releases_reservation outcome then .released else .replay outcome) ∧
      result.2.1.writable = true ∧
      ((releases_reservation outcome = true ∧ find_entry permit.identity new = none) ∨
        releases_reservation outcome = false ∧ ∃ sequence, find_entry permit.identity new
          = some (entry.retain sequence (expiry store outcome now) outcome))) ∨
    (result.1 = .unrecorded changed (persistence_error permit.correlation_id) ∧
      ∃ e, find_entry permit.identity new = some e ∧ e.state = .unresolved ∧
        e.expires_at = none)) := by
  obtain ⟨hsound, helsewhere, hhere⟩ := finish_state_files outcome now h hfind
  have hpersists := finish_section_matched C disk outcome now fault hfind hmatch hchannel
  rcases hpersists.entries with ⟨hwon, hwritable, hentries⟩ | ⟨hlost, hentries⟩ <;>
    simp only [hentries]
  · refine ⟨hsound, helsewhere, .inl ⟨hwon, hwritable, ?_⟩⟩
    exact hhere.imp_left fun hreleased => ⟨hreleased.1, hreleased.2.1⟩
  rcases unresolve_or_push_cases permit (finish_state store permit entry outcome now).entries with
    ⟨e', hf, href⟩ | ⟨hnone, hfiled⟩
  · have hk' : e'.identity = permit.identity := key_of_get hf
    have hunresolved := href.here
    rw [show ({ e' with state := .unresolved, expires_at := none } : Entry O).identity
      = permit.identity from hk'] at hunresolved
    refine ⟨hsound.refiled href nofun, fun k hne => ?_, .inr ⟨hlost, _, hunresolved, rfl, rfl⟩⟩
    exact (href.elsewhere k fun he => hne (he.trans hk')).trans (helsewhere k hne)
  · rcases hhere with ⟨-, -, hfits⟩ | ⟨-, sequence, hsome⟩
    · exact ⟨hsound.filed hfiled hnone nofun hfits,
        fun k hne => (hfiled.elsewhere k hne).trans (helsewhere k hne),
        .inr ⟨hlost, _, hfiled.here, rfl, rfl⟩⟩
    · cases hnone.symm.trans hsome

section

variable (h : Sound w) (hopen : w.opened) (hlock : w.lock = none)
  (ht : (w.tasks t).permit? = some permit)

include h hopen hlock ht

/-- A finish uses up the permit, whatever becomes of the write. -/
theorem Sound.finish_section (outcome : O) (now : Instant)
    (fault : Fault) : Sound (w.finish_section C t permit outcome now fault) := by
  obtain ⟨entry, hfind, hmatch⟩ := h.matched t permit ht
  obtain ⟨changed, hchannel⟩ := isSome_iff_exists.mp (Permit.matches_channel hmatch)
  obtain ⟨hsound, helsewhere, -⟩ :=
    finish_section_files C w.disk outcome now fault h.entries hfind hmatch hchannel
  rw [← (finish_section_matched C w.disk outcome now fault hfind hmatch hchannel).config] at hsound
  have hnone : (Idempotency.finish_section C w.store w.disk permit outcome now fault).1.task.permit?
      = none := by
    cases (Idempotency.finish_section C w.store w.disk permit outcome now fault).1 <;> rfl
  refine h.of_section hlock t _ hopen rfl (fun p changed => ?_) hsound
    ⟨h.matched_elsewhere ht helsewhere, fun p hp => by rw [hnone] at hp; cases hp⟩
  cases (Idempotency.finish_section C w.store w.disk permit outcome now fault).1 <;>
    simp [Finish.task]

/-- A permit that is dropped is used up. -/
theorem Sound.drop_section : Sound (w.drop_section t permit) := by
  obtain ⟨entry, hfind, hmatch⟩ := h.matched t permit ht
  have hk : entry.identity = permit.identity := key_of_get hfind
  have hboth : SoundEntries w.store.config (drop_entry w.store permit).1.entries ∧
      ∀ k, k ≠ permit.identity → find_entry k (drop_entry w.store permit).1.entries
        = find_entry k w.store.state.entries := by
    unfold drop_entry
    split
    · obtain ⟨href, -⟩ := unresolve_entry_matched h.unique hfind hmatch
      refine ⟨h.entries.refiled href nofun, fun k hne => ?_⟩
      exact href.elsewhere k fun he => hne (he.trans hk)
    · obtain ⟨hun, -⟩ := abandon_entry_matched h.unique hfind hmatch
      exact ⟨h.entries.unfiled hun, hun.elsewhere⟩
  exact h.of_section hlock t _ hopen rfl nofun hboth.1 ⟨h.matched_elsewhere ht hboth.2, nofun⟩

theorem Sound.abandon_entry : Sound (w.abandon_entry t permit) := by
  obtain ⟨entry, hfind, hmatch⟩ := h.matched t permit ht
  obtain ⟨hun, -⟩ := abandon_entry_matched h.unique hfind hmatch
  have hsound := h.entries.unfiled hun
  refine h.of_task t _ hopen rfl hsound ⟨h.matched_elsewhere ht hun.elsewhere, nofun⟩
    (.inl (by rw [hlock]; nofun)) fun p changed hr => ?_
  obtain ⟨rfl, -⟩ := Task.releasing.inj hr
  exact ⟨rfl, hun.here, h.fits.perm hun.keys⟩

end

/-- **The end of `abandon_inner`, key by key**: every other key keeps its entry, and the permit's
key is free when the release was recorded and unresolved when it was not. -/
theorem abandon_persist_files (fault : Fault)
    (hnone : find_entry permit.identity store.state.entries = none) :
    let result := abandon_persist C store disk permit fault
    (∀ k, k ≠ permit.identity →
      find_entry k result.2.1.state.entries = find_entry k store.state.entries) ∧
    ((result.1 = true ∧ find_entry permit.identity result.2.1.state.entries = none) ∨
      result.1 = false ∧
        find_entry permit.identity result.2.1.state.entries = some permit.unresolved_entry) := by
  have hfiled : Filed store.state.entries (store.state.entries ++ [permit.unresolved_entry])
      permit.unresolved_entry := filed_push hnone
  rcases (abandon_persist_persists C store disk permit fault).entries with
    ⟨hwon, -, hentries⟩ | ⟨hlost, hentries⟩ <;> simp only [hentries]
  · exact ⟨fun _ _ => trivial, .inl ⟨hwon, hnone⟩⟩
  · exact ⟨hfiled.elsewhere, .inr ⟨hlost, hfiled.here⟩⟩

theorem abandon_persist_keep {disk : Disk} {fault : Fault} {k : Key} {e : Entry O}
    (hnone : find_entry permit.identity store.state.entries = none)
    (hfind : find_entry k store.state.entries = some e) :
    find_entry k (abandon_persist C store disk permit fault).2.1.state.entries = some e := by
  have hk : k ≠ permit.identity := by
    rintro rfl
    cases hnone.symm.trans hfind
  exact ((abandon_persist_files C disk fault hnone).1 k hk).trans hfind

/-- The second section of an abandon keeps the store sound, failing or not. -/
theorem Sound.abandon_persist (h : Sound w) (hopen : w.opened)
    {changed : Option ChannelId} (ht : w.tasks t = .releasing permit changed)
    (fault : Fault) : Sound (w.abandon_persist C t permit changed fault) := by
  obtain ⟨hlock, hnone, hfits⟩ := h.releasing t permit changed ht
  have hpersists := abandon_persist_persists C w.store w.disk permit fault
  have hsound : SoundEntries w.store.config
      (Idempotency.abandon_persist C w.store w.disk permit fault).2.1.state.entries := by
    rcases hpersists.entries with ⟨-, -, hentries⟩ | ⟨-, hentries⟩ <;> rw [hentries]
    · exact h.entries
    · exact h.entries.filed (filed_push hnone) hnone nofun hfits
  rw [← hpersists.config] at hsound
  refine h.of_task t _ hopen rfl hsound ⟨fun i p _ hp => ?_, nofun⟩ (.inl fun i hi => ?_) nofun
  · obtain ⟨e, hf, hm⟩ := h.matched i p hp
    exact ⟨e, abandon_persist_keep C hnone hf, hm⟩
  · -- the mutex has one holder, so nobody else was releasing
    rw [hlock] at hi
    exact (some.inj hi).symm

/-! ## Opening -/

variable (resolve : V → Option O)

theorem restore_entry_channel (d : DurableEntry V) :
    (restore_entry resolve d).state.channel = none := by
  unfold restore_entry
  cases d.state with
  | reserved => rfl
  | unresolved => rfl
  | retained value =>
    simp only
    cases resolve value <;> rfl

/-- Entries that the ledger's check accepts are in order once they are restored: none is a
reservation. -/
theorem restore_sound (hnow : validated_at ≤ now) (resolve : V → Option O)
    {entries : List (DurableEntry V)} (hvalid : validate C validated_at entries = .ok ()) :
    SoundEntries .open_durable (restore resolve now entries).entries := by
  obtain ⟨-, hunique, hprincipal, htotal⟩ := (validate_eq_ok C).mp hvalid
  have hsub := live_sublist hnow entries
  have hkeys : (restore resolve now entries).entries.map Entry.identity
      = (live now entries).map DurableEntry.identity := by
    simp only [restore, map_map]
    rfl
  refine ⟨?_, fun e he hres => ?_, ?_⟩
  · rw [UniqueKeys, Keyed.Unique, hkeys]
    exact hunique.sublist hsub
  · obtain ⟨d, -, rfl⟩ := mem_map.mp he
    rw [restore_entry_channel] at hres
    cases hres
  rw [hkeys]
  refine ⟨fun p => ?_, ?_⟩
  · have hcount : ((live now entries).map DurableEntry.identity).countP (fun k => k.1 = p)
        = principal_count p (live now entries) := by
      rw [countP_map, principal_count]
      apply countP_congr
      intro d _
      simp only [comp_apply, DurableEntry.identity, decide_eq_true_eq]
      exact ⟨fun h => (of_decide_eq_true h).symm, fun h => decide_eq_true h.symm⟩
    rw [hcount]
    exact hsub.countP_le.trans (hprincipal p)
  · rw [length_map]
    exact hsub.length_le.trans htotal

/-- A store that opens has what was restored of the ledger, and nothing if the ledger cannot be
used. -/
theorem open_durable_entries (loaded_at validated_at now : Instant) (fault : Fault) :
    let opened := open_journal C loaded_at validated_at disk
    let store := (open_durable C disk resolve loaded_at validated_at now fault).1
    store.config = .open_durable ∧
      ((∃ issue, opened.2 = .error issue ∧ store.state.entries = []) ∨
        ∃ entries, opened.2 = .ok entries ∧
          store.state.entries = (restore resolve now entries).entries) := by
  rcases open_durable_cases C disk resolve loaded_at validated_at now fault with
    ⟨issue, hissue, hres⟩ | ⟨entries, hopened, hcases⟩
  · simp only [hres]
    exact ⟨trivial, .inl ⟨issue, hissue, trivial⟩⟩
  have hspec := persist_locked_spec C
    (restored_store resolve now (open_journal C loaded_at validated_at disk).1 entries) disk fault
  rcases hcases with
    ⟨-, hres⟩ | ⟨-, ⟨u, store', disk', hpl, hres⟩ | ⟨e, store', disk', hpl, hres⟩⟩
  · simp only [hres]
    exact ⟨rfl, .inr ⟨entries, hopened, rfl⟩⟩
  all_goals
    rw [hpl] at hspec
    simp only [hres]
    exact ⟨hspec.config, .inr ⟨entries, hopened, hspec.entries⟩⟩

/-- **Opening**: the store starts with sound entries. -/
theorem open_durable_sound (loaded_at : Instant) (hnow : validated_at ≤ now) (fault : Fault) :
    let store := (open_durable C disk resolve loaded_at validated_at now fault).1
    store.config = .open_durable ∧ SoundEntries .open_durable store.state.entries := by
  obtain ⟨hconfig, hentries⟩ := open_durable_entries C disk resolve loaded_at validated_at now fault
  refine ⟨hconfig, ?_⟩
  rcases hentries with ⟨issue, -, hentries⟩ | ⟨entries, hopened, hentries⟩ <;> rw [hentries]
  · exact soundEntries_nil _
  · exact restore_sound C hnow resolve (open_journal_valid C hopened)

theorem sound_of_idle (hentries : SoundEntries w.store.config w.store.state.entries)
    (hidle : ∀ i, w.tasks i = .idle) : Sound w := by
  refine ⟨hentries, fun i p hp => ?_, fun i j p q hp => ?_, fun i p changed hi => ?_, fun _ => hidle⟩
  · rw [hidle] at hp
    cases hp
  · rw [hidle] at hp
    cases hp
  · rw [hidle] at hi
    cases hi

theorem Sound.reopen (h : Sound w) (hclosed : w.opened = false)
    (resolve : V → Option O) (loaded_at : Instant) (hnow : validated_at ≤ now) (fault : Fault) :
    Sound (w.reopen C resolve loaded_at validated_at now fault) := by
  obtain ⟨hconfig, hsound⟩ := open_durable_sound C w.disk resolve loaded_at hnow fault
  rw [← hconfig] at hsound
  exact sound_of_idle hsound (h.closed hclosed)

theorem Initial.sound (h : Initial w) : Sound w := by
  refine sound_of_idle ?_ fun i => by rw [h.tasks]
  rw [h.store]
  exact soundEntries_nil _

/-! ## Every run -/

/-- **One step**, of any task or of the process, keeps the store sound. -/
theorem Sound.step {w w' : World O} {a : Action O V} (h : Sound w)
    (hstep : step C w a = some w') : Sound w' := by
  cases step_inv C hstep with
  | reserve hopen htask hnow =>
    refine h.set_task hopen _ _ (fun p hp => ?_) (fun p changed => ?_)
    · split at hp <;> cases hp
    · split <;> simp
  | look hopen hlock htask => exact h.look hopen hlock _ _ _
  | wake hopen htask hready =>
    refine h.set_task hopen _ _ (fun p hp => ?_) (fun p changed => ?_)
    · cases hu : w.channels _ <;> rw [hu] at hp <;> cases hp
    · cases hu : w.channels _ <;> simp [ReservationUpdate.task]
  | time_out hopen | cancel hopen => exact h.set_task hopen _ _ nofun nofun
  | acquire hopen hlock htask => exact h.acquire C hopen hlock _ _ _ _
  | leave hopen htask hleaves =>
    refine h.set_task hopen _ _ (fun p hp => htask ▸ ?_) (fun p changed => ?_)
    · cases hleaves <;> cases hp <;> rfl
    · cases hleaves <;> nofun
  | finish_section hopen hlock htask =>
    exact h.finish_section C hopen hlock (congrArg Task.permit? htask) _ _ _
  | abandon_entry hopen hlock htask => exact h.abandon_entry hopen hlock (congrArg Task.permit? htask)
  | abandon_persist hopen htask => exact h.abandon_persist C hopen htask _
  | drop_section hopen hlock hpermit => exact h.drop_section hopen hlock hpermit
  | advance hmax => exact ⟨h.entries, h.matched, h.exclusive, h.releasing, h.closed⟩
  | crash | exit => exact sound_of_idle (soundEntries_nil _) fun _ => rfl
  | reopen hdurable hclosed hloaded hvalidated hnow hmax => exact h.reopen C hclosed _ _ hnow _

/-- The worlds that runs of the store lead to. -/
abbrev Reached (w : World O) : Prop := Reachable (Initial (O := O)) (step C) (fun _ _ => True) w

/-- **Every reachable world is sound.** -/
theorem Reached.sound (h : Reached C w) : Sound w :=
  Reachable.invariant (fun _ hi => hi.sound) (fun _ _ _ hs _ ht => hs.step C ht) h

/-- The reservation of a permit. -/
def Permit.Reserves (p : Permit) (e : Entry O) : Prop :=
  e.identity = p.identity ∧ e.operation = p.operation ∧ e.canonical_sha256 = p.canonical_sha256 ∧
    ∃ changed, e.state = .reserved p.generation changed

/-- **The store under every interleaving.** In every reachable world each key has at most one
entry; every live permit, armed or not, is matched by exactly one reserved entry with its key,
operation, digest and generation; no two live permits are for one key; and neither capacity is
exceeded. An entry that is unresolved because it could not be persisted has no live permit any
more, and the generation may wrap around without harm. -/
theorem store_invariant {w : World O} (h : Reached C w) :
    UniqueKeys w.store.state.entries ∧
    (∀ i p, (w.tasks i).permit? = some p → ∃! e, e ∈ w.store.state.entries ∧ p.Reserves e) ∧
    (∀ i j p q, (w.tasks i).permit? = some p → (w.tasks j).permit? = some q →
      p.identity = q.identity → i = j) ∧
    (∀ principal, principal_len w.store.state principal ≤ w.store.config.per_principal_capacity) ∧
    entry_count w.store.state ≤ w.store.config.global_capacity := by
  have hs := h.sound
  refine ⟨hs.unique, fun i p hp => ?_, hs.exclusive, fun principal => ?_, ?_⟩
  · obtain ⟨e, hfind, hmatch⟩ := hs.matched i p hp
    obtain ⟨hop, hsha, hstate⟩ := Permit.matches_reserved hmatch
    refine ⟨e, ⟨mem_of_get hfind, key_of_get hfind, hop, hsha, hstate⟩, ?_⟩
    -- any other entry that fits the permit is filed under the same key
    rintro e' ⟨hmem, hk, -⟩
    exact some.inj
      ((hs.unique.get_of_mem hmem hk).symm.trans hfind)
  · rw [principal_len_eq]
    exact hs.fits.principal principal
  · rw [entry_count_eq]
    exact hs.fits.total

/-- A ledger of command outcomes in the format of `Wire`. -/
abbrev command_codec : Codec CommandId := wire_codec (Wire.fin (2 ^ 128))

/-- A request for the key `k` of the first principal. -/
def sample_request : Request :=
  ⟨0, ⟨[0x6b], by decide +kernel, by decide +kernel, by decide +kernel⟩, .submit_command, zero_sha256, 0, 0⟩

/-- A second request of the same principal. -/
def other_request : Request :=
  { sample_request with key := ⟨[0x6c], by decide +kernel, by decide +kernel, by decide +kernel⟩ }

/-- A store in memory that holds one entry for each of two principals. -/
def small_config : Config := ⟨1, 2, 1000, false, nofun⟩

/-- After a reservation in a store in memory its owner has a permit, and the permit its entry. -/
theorem store_invariant_after_reserve :
    ∃ w : World (CommandOutcome Unit),
      run (step command_codec) (World.start small_config ⟨none, []⟩ 0)
        [.reserve 0 sample_request 0, .look 0, .acquire 0 .none] = some w ∧
      (w.tasks 0).permit? = some (sample_request.permit 2) ∧
      ∃! e, e ∈ w.store.state.entries ∧ (sample_request.permit 2).Reserves e := by
  obtain ⟨w, hrun, hpermit⟩ : ∃ w : World (CommandOutcome Unit),
      run (step command_codec) (World.start small_config ⟨none, []⟩ 0)
        [.reserve 0 sample_request 0, .look 0, .acquire 0 .none] = some w ∧
      (w.tasks 0).permit? = some (sample_request.permit 2) := ⟨_, rfl, rfl⟩
  have hreached := reachable_of_run (.start (Initial.start ⟨none, []⟩ (by decide)))
    (fun _ _ _ => trivial) hrun
  exact ⟨w, hrun, hpermit, (store_invariant _ hreached).2.1 0 _ hpermit⟩

end BobbyBrowser.Idempotency
