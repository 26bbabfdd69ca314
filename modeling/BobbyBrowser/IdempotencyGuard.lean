/-
A key is not given out twice.

Once a key has been acquired, the store has to turn every later caller away
until the owner releases the key, or until a success the owner retained has
expired or was evicted. Memory alone cannot do that: the process may go down at
any point, in the middle of a write included, and the next one only knows what
the ledger brings back.

The argument is about one acquisition and the events since. While its owner has
not given the key up, the entry of the key is in memory, cannot be dropped before
its time, and every image a crash may leave of the ledger either does not load or
loads with such an entry.
-/
import BobbyBrowser.IdempotencyLedger
import BobbyBrowser.IdempotencySections

set_option autoImplicit false

namespace BobbyBrowser.Idempotency

open Lines Ledger RetainedOutcome List Option Keyed
open Transition Outcomes
open Idempotency (acquire look)

variable {now : Instant} {fault : Fault} {request : Request} {permit : Permit} {task : ℕ}

variable {O V : Type} [RetainedOutcome O V] (C : Codec V)

/-! ## Appending to a file that has a header -/

/-- A store that can append has a file of whole lines behind a header. -/
def Appendable (store : Store O) (disk : Disk) : Prop :=
  store.writable = true → store.journal.has_file = true →
    ∃ bytes, disk.file = some bytes ∧ Headed C bytes

/-- A store that can append has a headed file, throughout a run. -/
theorem appendable_rule : LedgerRule C (Appendable C (O := O)) where
  congr h _ hjournal hw hw' hfile := h (hw hw') (by rw [← hjournal]; exact hfile)
  persist := by
    intro store disk fault h hw hfile
    rcases persist_locked_writable C hw with
      ⟨hwritable, hjournal, hdisk⟩ | ⟨entries, -, -, hdisk⟩ | ⟨updates, -, hwritable, hfile, -, -, hdisk⟩
    · rw [hdisk]
      rw [hjournal] at hfile
      exact h hwritable hfile
    · rw [hdisk]
      exact ⟨_, rfl, headed_header_line C entries⟩
    · obtain ⟨bytes, hbytes, hheaded⟩ := h hwritable hfile
      rw [hdisk, hbytes]
      exact ⟨_, rfl, hheaded.append_record C _⟩
  crash _ _ := nofun
  exit _ := nofun
  load loaded_at validated_at _ hjournal _ hfile := by
    rw [hjournal] at hfile
    obtain ⟨bytes, d, hbytes, ha, -⟩ := open_journal_handle C hfile
    exact ⟨bytes, hbytes, ha.headed⟩

/-! ## What the disk is sure to bring back -/

/-- What was loaded has an entry for `k` that meets `P`. -/
def Brings (k : Key) (P : DurableEntry V → Prop) (loaded : Option (Loaded V)) : Prop :=
  ∃ l d, loaded = some l ∧ Keyed.get DurableEntry.identity k l.entries = some d ∧ P d

/-- Whatever a crash leaves of the ledger, if it loads then it loads with an entry for `k` that
meets `P`. -/
def Survives (k : Key) (P : DurableEntry V → Prop) (disk : Disk) : Prop :=
  ∀ image ∈ disk.images, ∀ now loaded, load C now image = .ok loaded → Brings k P loaded

variable {disk : Disk}

theorem Survives.mono {k : Key} {P Q : DurableEntry V → Prop}
    (h : Survives C k P disk) (himp : ∀ d, P d → Q d) : Survives C k Q disk := by
  intro image himage now loaded hload
  obtain ⟨l, d, hl, hd, hP⟩ := h image himage now loaded hload
  exact ⟨l, d, hl, hd, himp d hP⟩

variable {store : Store O} {state : StoreState O} {loaded : Option (Loaded V)}

section

variable {k : Key} {P : DurableEntry V → Prop} {e : Entry O}

theorem recorded_meets {recorded : Option (DurableEntry V)}
    (hrel : Option.Rel (RecordedAs C) (some e) recorded) (hP : ∀ d, RecordedAs C e d → P d) :
    ∃ d, recorded = some d ∧ P d := by
  cases hrel with
  | some hd => exact ⟨_, rfl, hP _ hd⟩

/-- A checkpoint brings back what is in memory. -/
theorem checkpoint_brings_back {entries : List (Entry O)} {ds : List (DurableEntry V)}
    (hds : durable_entries C entries = .ok ds) (hfind : find_entry k entries = some e)
    (hP : ∀ d, RecordedAs C e d → P d)
    (hload : load C now (some (header_line C ds)) = .ok loaded) : Brings k P loaded := by
  obtain ⟨l, rfl, hl⟩ := load_header_line C hload
  have hrel := durable_entries_get C hds k
  rw [hfind] at hrel
  obtain ⟨d, hd, hPd⟩ := recorded_meets C hrel hP
  exact ⟨l, d, rfl, by rw [hl, hd], hPd⟩

/-- A change brings back what is in memory under a dirty key, and what the file had under any
other. -/
theorem append_brings_back {updates : List (DurableEntry V)}
    (journal : Journal) {bytes : Bytes} (hheaded : Headed C bytes)
    (hupdates : durable_entries C (dirty_entries state) = .ok updates)
    (hfind : find_entry k state.entries = some e) (hP : ∀ d, RecordedAs C e d → P d)
    (hbase : k ∈ state.dirty ∨ ∀ now loaded, load C now (some bytes) = .ok loaded →
      Brings k P loaded) (hload : load C now (some (bytes
      ++ record_line C (journal.next_change updates (dirty_removes state)))) = .ok loaded) :
    Brings k P loaded := by
  obtain ⟨d₀, ha, hadm, rfl⟩ := hheaded.load_append_record C hload
  have hget := next_change_get C hadm.updates_unique hupdates journal d₀.entries k
  by_cases hk : k ∈ state.dirty
  · have hrel := hget.1 hk
    rw [hfind] at hrel
    obtain ⟨d, hd, hPd⟩ := recorded_meets C hrel hP
    exact ⟨_, d, rfl, hd, hPd⟩
  · obtain ⟨l, d, hl, hd, hPd⟩ := hbase.resolve_left hk now _ ha.load_eq
    obtain rfl := some.inj hl
    exact ⟨_, d, rfl, (hget.2 hk).trans hd, hPd⟩

/-- **Persisting keeps an entry on the disk**: what the ledger was sure to bring back for a key it
still is, and a persist that succeeds makes it sure for a dirty key. -/
theorem Survives.persist (hdurable : store.config.durable) (happend : Appendable C store disk)
    (hfind : find_entry k store.state.entries = some e) (hP : ∀ d, RecordedAs C e d → P d)
    (h : Survives C k P disk ∨ k ∈ store.state.dirty ∧
      (persist_locked C store disk fault).1 = .ok ()) :
    Survives C k P (persist_locked C store disk fault).2.2 := by
  rcases persist_locked_cases C store disk fault with
    ⟨error, hr⟩ | ⟨-, hclean, hr⟩ | ⟨-, -, -, ds, hds, hr⟩ | ⟨hw, -, -, updates, hupdates, hr⟩ <;>
    rw [hr] at h ⊢
  · rcases h with h | ⟨-, hok⟩
    · exact h
    · cases hok
  · rcases h with h | ⟨hdirty, -⟩
    · exact h
    · rw [hclean hdurable] at hdirty
      cases hdirty
  · have hnew : ∀ now loaded, load C now (some (header_line C ds)) = .ok loaded → _ :=
      fun now loaded => checkpoint_brings_back C hds hfind hP
    rcases store.journal.checkpoint_cases C disk ds fault with
      ⟨error, -, hc⟩ | ⟨error, -, hc⟩ | ⟨error, -, hc⟩ | hc <;> rw [hc] at h ⊢
    · exact h.resolve_right fun hok => by cases hok.2
    · have hold := h.resolve_right fun hok => by cases hok.2
      intro image himage
      rcases mem_cons.mp himage with rfl | himage
      · exact hnew
      · exact hold image himage
    all_goals
      intro image himage
      rw [mem_singleton.mp himage]
      exact hnew
  -- a change lands whole, in part, or not at all
  rcases store.journal.append_cases C disk updates (dirty_removes store.state) fault with
    ⟨error, hc, -⟩ | ⟨error, written, -, hfile, hc⟩ | ⟨hfile, -, hc⟩ <;> rw [hc] at h ⊢
  · exact h.resolve_right fun hok => by cases hok.2
  · obtain ⟨bytes, hbytes, hheaded⟩ := happend hw hfile
    have hold := h.resolve_right fun hok => by cases hok.2
    have hbase : Survives C k P ⟨some bytes, []⟩ := fun image himage => by
      rw [mem_singleton.mp himage, ← hbytes]
      exact hold _ mem_cons_self
    intro image himage now loaded hload
    rcases Disk.mem_images_append_unsynced himage with himage | ⟨j, rfl⟩
    · exact hold image (mem_cons_of_mem _ himage) now loaded hload
    rw [hbytes, getD_some] at hload
    have hno := C.newline_notMem_record
      ((store.journal.next_change updates (dirty_removes store.state)).record C)
    by_cases hj : j ≤ (C.record_bytes
        ((store.journal.next_change updates (dirty_removes store.state)).record C)).length
    · by_cases hnil : (record_line C
          (store.journal.next_change updates (dirty_removes store.state))).take j = []
      · rw [hnil, append_nil] at hload
        exact hbase _ mem_cons_self now loaded hload
      · exact absurd hload (hheaded.load_torn C hnil (newline_notMem_take hno hj) now loaded)
    · rw [record_line, ← Change.record, take_line_of_length_lt (not_le.mp hj)] at hload
      exact append_brings_back C store.journal hheaded hupdates hfind hP
        (.inr (hbase _ mem_cons_self)) hload
  · obtain ⟨bytes, hbytes, hheaded⟩ := happend hw hfile
    intro image himage now loaded hload
    rw [mem_singleton.mp himage, hbytes, getD_some] at hload
    refine append_brings_back C store.journal hheaded hupdates hfind hP ?_ hload
    rcases h with h | ⟨hdirty, -⟩
    · exact .inr (by rw [← hbytes]; exact h _ mem_cons_self)
    · exact .inl hdirty

end

/-! ## What has become of an acquisition -/

/-- The outcome the key was last finished with. -/
def last_finished (k : Key) (history : List (Event O)) : Option O :=
  history.foldl (fun last event => match event with
    | .finished k' _ outcome _ => if k' = k then some outcome else last
    | _ => last) none

/-- **When a key may be given out again**: its owner abandoned it, finished it with an outcome that
releases it, or finished it with a success that is not safety relevant and that has expired by
`now` or was evicted since. -/
def GivenUp (k : Key) (c : ChannelId) (since : List (Event O)) (now : Instant) : Prop :=
  .abandoned k c ∈ since ∨
  (∃ outcome x, .finished k c outcome x ∈ since ∧ releases_reservation outcome = true) ∨
  ∃ outcome t before later, since = before ++ .finished k c outcome (some t) :: later ∧
    releases_reservation outcome = false ∧ safety_relevant outcome = false ∧
    (t ≤ now ∨ .evicted k ∈ later)

/-- The owner finished with a success that is retained until that instant. -/
def Succeeded (k : Key) (c : ChannelId) (since : List (Event O)) (t : Instant) : Prop :=
  ∃ outcome before later, since = before ++ .finished k c outcome (some t) :: later ∧
    releases_reservation outcome = false ∧ safety_relevant outcome = false

variable {t : Instant}

section

variable {k : Key} {c : ChannelId} {since es : List (Event O)}

omit [RetainedOutcome O V] in
/-- Events about other keys leave a key's last outcome. -/
theorem last_finished_append_of_not_concerns {history : List (Event O)}
    (h : ∀ event ∈ es, ¬ event.concerns k) :
    last_finished k (history ++ es) = last_finished k history := by
  unfold last_finished
  rw [foldl_append]
  induction es with
  | nil => rfl
  | cons event es ih =>
    rw [foldl_cons]
    have hrest := ih fun e he => h e (mem_cons_of_mem _ he)
    cases event with
    | finished k' c' outcome expires_at =>
      simp only [if_neg (show ¬ k' = k from h _ mem_cons_self)]
      exact hrest
    | _ => exact hrest

omit [RetainedOutcome O V] in
theorem last_finished_concat (history : List (Event O)) (outcome : O) (x : Option Instant) :
    last_finished k (history ++ [.finished k c outcome x]) = some outcome := by
  unfold last_finished
  rw [foldl_append, foldl_cons]
  exact if_pos rfl

/-- What was given up stays so. -/
theorem GivenUp.later {now' : Instant} (h : GivenUp k c since now) (es : List (Event O))
    (hnow : now ≤ now') : GivenUp k c (since ++ es) now' := by
  rcases h with h | ⟨outcome, x, h, hrel⟩ | ⟨outcome, t, before, later, rfl, hrel, hsafe, h⟩
  · exact .inl (mem_append_left _ h)
  · exact .inr (.inl ⟨outcome, x, mem_append_left _ h, hrel⟩)
  · refine .inr (.inr ⟨outcome, t, before, later ++ es, ?_, hrel, hsafe, ?_⟩)
    · rw [append_assoc, cons_append]
    · exact h.imp (fun ht => ht.trans hnow) fun hev => mem_append_left _ hev

theorem Succeeded.append (h : Succeeded k c since t) (es : List (Event O)) :
    Succeeded k c (since ++ es) t := by
  obtain ⟨outcome, before, later, rfl, hrel, hsafe⟩ := h
  exact ⟨outcome, before, later ++ es, by rw [append_assoc, cons_append], hrel, hsafe⟩

theorem Succeeded.expired (h : Succeeded k c since t) (hnow : t ≤ now) : GivenUp k c since now := by
  obtain ⟨outcome, before, later, hsince, hrel, hsafe⟩ := h
  exact .inr (.inr ⟨outcome, t, before, later, hsince, hrel, hsafe, .inl hnow⟩)

theorem Succeeded.evicted (h : Succeeded k c since t) (hmem : .evicted k ∈ es) :
    GivenUp k c (since ++ es) now := by
  obtain ⟨outcome, before, later, rfl, hrel, hsafe⟩ := h
  exact .inr (.inr ⟨outcome, t, before, later ++ es, by rw [append_assoc, cons_append],
    hrel, hsafe, .inr (mem_append_right _ hmem)⟩)

end

/-! ## The entry of a key that is not free -/

/-- The entry keeps its key: for good, or at least until an instant. `last` is the outcome the key
was last finished with. -/
structure Keeps (last : Option O) (x : Option Instant) (e : Entry O) : Prop where
  expires : e.expires_at = none ∨ e.expires_at = x
  safe : x = none → ∀ outcome s, e.state = .retained outcome s →
    s = true ∧ last = some outcome ∧ safety_relevant outcome = true

/-- What is recorded keeps its key, once restored by a resolver that tells the truth. -/
structure KeepsRecorded (last : Option O) (x : Option Instant) (d : DurableEntry V) : Prop where
  expires : d.expires_at = none ∨ d.expires_at = x
  safe : x = none → ∀ value, d.state = .retained value →
    ∃ outcome, last = some outcome ∧ safety_relevant outcome = true

section

variable {last : Option O} {x : Option Instant} {e : Entry O}

theorem Keeps.of_eternal (hstate : ∀ outcome s, e.state ≠ .retained outcome s)
    (hexpires : e.expires_at = none) : Keeps last x e :=
  ⟨.inl hexpires, fun _ outcome s hs => absurd hs (hstate outcome s)⟩

theorem Keeps.of_unresolved (hstate : e.state = .unresolved) (hexpires : e.expires_at = none) :
    Keeps last x e :=
  .of_eternal (fun outcome s hs => by cases hstate.symm.trans hs) hexpires

theorem not_elapsed {expires_at : Option Instant} (h : expires_at = none ∨ expires_at = x)
    (hx : ∀ t, x = some t → now < t) : expires_at.any (· ≤ now) = false := by
  cases he : expires_at with
  | none => rfl
  | some t =>
    have ht := h.resolve_left (by rw [he]; nofun)
    exact decide_eq_false (not_le.mpr (hx t (ht.symm.trans he)))

theorem Keeps.live (h : Keeps last x e) (hx : ∀ t, x = some t → now < t) :
    e.expired now = false := not_elapsed h.expires hx

theorem Keeps.not_evictable (h : Keeps last none e) : entry_is_evictable e = false := by
  unfold entry_is_evictable
  cases hs : e.state with
  | retained outcome s => rw [(h.safe rfl outcome s hs).1]; rfl
  | reserved | unresolved => rfl

theorem Keeps.recorded (h : Keeps last x e) {d : DurableEntry V} (hd : RecordedAs C e d) :
    KeepsRecorded last x d := by
  have hexpires : d.expires_at = e.expires_at := by rw [hd.fields]
  refine ⟨h.expires.imp hexpires.trans hexpires.trans, fun hx value hvalue => ?_⟩
  unfold RecordedAs durable_entry at hd
  cases hs : e.state with
  | reserved | unresolved =>
    simp only [hs] at hd
    cases hd
    cases hvalue
  | retained outcome s => exact ⟨outcome, (h.safe hx outcome s hs).2⟩

theorem KeepsRecorded.live {d : DurableEntry V} (h : KeepsRecorded last x d)
    (hx : ∀ t, x = some t → now < t) : d.expired now = false := not_elapsed h.expires hx

/-- **Restoring a key that is not free.** With a resolver that returns nothing or the outcome the
key was finished with, the restored entry keeps its key as the recorded one did. -/
theorem KeepsRecorded.restore {d : DurableEntry V} (h : KeepsRecorded last x d)
    {resolve : V → Option O} (hresolve : ∀ value outcome, d.state = .retained value →
      resolve value = some outcome → ∀ outcome', last = some outcome' → outcome = outcome') :
    Keeps last x (restore_entry resolve d) := by
  have hexpires : (restore_entry resolve d).expires_at = none ∨
      (restore_entry resolve d).expires_at = d.expires_at := by
    unfold restore_entry
    simp only
    split
    · exact .inr rfl
    · exact .inl rfl
  refine ⟨hexpires.elim .inl fun hsame => h.expires.imp hsame.trans hsame.trans,
    fun hx outcome s hs => ?_⟩
  have hstate : ∃ value, d.state = .retained value ∧ resolve value = some outcome ∧
      s = safety_relevant outcome := by
    unfold restore_entry at hs
    split at hs
    · cases hs
    · cases hs
    rename_i value hvalue
    split at hs
    · rename_i outcome' hresolved
      cases hs
      exact ⟨value, hvalue, hresolved, rfl⟩
    · cases hs
  obtain ⟨value, hvalue, hresolved, rfl⟩ := hstate
  obtain ⟨outcome', hlast, hsafe⟩ := h.safe hx value hvalue
  obtain rfl := hresolve value outcome hvalue hresolved outcome' hlast
  exact ⟨hsafe, hlast, hsafe⟩

end

/-! ## What the sections leave on the disk -/

section

variable {k : Key} {P : DurableEntry V → Prop} {e : Entry O} {store : Store O} {disk : Disk}

/-- **A section that persists keeps an entry on the disk** that it does not change. -/
theorem Survives.persists {α : Type} {won lost : α} {fallback : List (Entry O) → List (Entry O)}
    {result : α × Store O × Disk} (hp : Persists C store disk fault state won lost fallback result)
    (hdurable : store.config.durable) (happend : Appendable C store disk)
    (hfind : find_entry k state.entries = some e) (hP : ∀ d, RecordedAs C e d → P d)
    (h : Survives C k P disk ∨ k ∈ state.dirty ∧ result.1 = won ∧ won ≠ lost) :
    Survives C k P result.2.2 := by
  have hdurable' : ({ store with state := state } : Store O).config.durable = true := hdurable
  have hpersist : _ → Survives C k P
      (persist_locked C { store with state := state } disk fault).2.2 :=
    Survives.persist C hdurable' happend hfind hP
  cases hp with
  | ok hp =>
    rw [hp] at hpersist
    exact hpersist (h.imp_right fun hdirty => ⟨hdirty.1, rfl⟩)
  | error hp =>
    rw [hp] at hpersist
    exact hpersist (.inl (h.resolve_right fun hlost => hlost.2.2 hlost.2.1.symm))

/-- An acquisition of another key takes nothing from the disk that memory still has after it made
room. -/
theorem Survives.acquire (channel : ChannelId) (fault : Fault)
    (hdurable : store.config.durable) (happend : Appendable C store disk)
    (hsound : SoundEntries store.config store.state.entries)
    (hk : find_entry request.identity (cleanup_expired store.state now).entries = none →
      k ≠ request.identity ∧ find_entry k (make_space store request now).entries = some e)
    (hP : ∀ d, RecordedAs C e d → P d) (h : Survives C k P disk) :
    Survives C k P (acquire C store disk request now channel fault).2.2 := by
  rcases acquire_cases C store disk request now channel fault with
    ⟨-, hres⟩ | ⟨-, -, hres⟩ | ⟨-, -, -, hres⟩ | ⟨-, hnone, hp, ht, hpersists⟩
  · rw [hres]
    exact h
  · rw [hres]
    exact h
  · rw [hres]
    exact h
  obtain ⟨hne, hfind⟩ := hk hnone
  have hfiled := (filed_state_keeps channel hsound hnone hp ht).1
  exact Survives.persists C hpersists hdurable happend ((hfiled.elsewhere k hne).trans hfind) hP
    (.inl h)

/-- **A permit is granted only when the reservation is on the disk**: whatever a crash leaves then
brings it back. -/
theorem survives_of_granted {channel : ChannelId} (hdurable : store.config.durable)
    (happend : Appendable C store disk) (hsound : SoundEntries store.config store.state.entries)
    (hgranted : (acquire C store disk request now channel fault).1 = .granted permit)
    (hP : ∀ sequence d, RecordedAs C (request.entry sequence channel : Entry O) d → P d) :
    Survives C request.identity P (acquire C store disk request now channel fault).2.2 := by
  rcases acquire_cases C store disk request now channel fault with
    ⟨-, hres⟩ | ⟨-, -, hres⟩ | ⟨-, -, -, hres⟩ | ⟨-, hnone, hp, ht, hpersists⟩
  · cases (congrArg Prod.fst hres).symm.trans hgranted
  · cases (congrArg Prod.fst hres).symm.trans hgranted
  · cases (congrArg Prod.fst hres).symm.trans hgranted
  have hfiled := (filed_state_keeps channel hsound hnone hp ht).1
  refine Survives.persists C hpersists hdurable happend hfiled.here (hP _)
    (.inr ⟨mem_mark.mpr (.inl rfl), ?_, nofun⟩)
  exact hpersists.entries.elim And.left fun hlost => by cases hlost.1.symm.trans hgranted

end

/-! ## The invariant -/

/-- A store that may write has an entry that keeps the key in memory, and the disk is sure to bring
one back. -/
structure Stored (w : World O) (k : Key) (last : Option O) (x : Option Instant) : Prop where
  memory : w.opened = true → w.store.writable = true →
    ∃ e, find_entry k w.store.state.entries = some e ∧ Keeps last x e
  disk : Survives C k (KeepsRecorded last x) w.disk

/-- The key is kept from everybody else, for good or until an instant: it was not acquired again
and its entry is stored. -/
structure Guarded (w : World O) (k : Key) (c : ChannelId) (since : List (Event O))
    (x : Option Instant) : Prop extends Stored C w k (last_finished k w.history) x where
  latest : ∀ c t, .acquired k c t ∉ since
  succeeded : ∀ t, x = some t → Succeeded k c since t

/-- The owner has given the key up, or it is guarded. -/
def Settled (w : World O) (k : Key) (c : ChannelId) (since : List (Event O)) : Prop :=
  GivenUp k c since w.clock ∨ ∃ x, Guarded C w k c since x

/-- A reservation in memory is the last acquisition of its key, and is not finished. -/
def Linked (w : World O) : Prop :=
  ∀ k e generation changed, find_entry k w.store.state.entries = some e →
    e.state = .reserved generation changed →
      ∃ before t since, w.history = before ++ .acquired k changed t :: since ∧
        (∀ c t, .acquired k c t ∉ since) ∧ ∀ outcome x, .finished k changed outcome x ∉ since

/-- The invariant that no key is given out twice. -/
structure Guarding (w : World O) : Prop where
  linked : Linked w
  guards : ∀ k c t before since, w.history = before ++ .acquired k c t :: since →
    Settled C w k c since
  /-- Between two acquisitions of a key the first one came to an end. -/
  ended : ∀ k c c' t t' before since later,
    w.history = before ++ .acquired k c t :: (since ++ .acquired k c' t' :: later) →
      GivenUp k c since t'

section

variable {C} {w w' : World O} {k : Key} {c : ChannelId} {since es : List (Event O)}
  {x : Option Instant}

theorem Guarded.given_up_or_live (h : Guarded C w k c since x) (now : Instant) :
    GivenUp k c since now ∨ ∀ t, x = some t → now < t := by
  by_cases hx : ∃ t, x = some t ∧ t ≤ now
  · obtain ⟨t, ht, hnow⟩ := hx
    exact .inl ((h.succeeded t ht).expired hnow)
  · exact .inr fun t ht => not_le.mp fun hnow => hx ⟨t, ht, hnow⟩

theorem Guarded.frame (h : Guarded C w k c since x) (hhist : w'.history = w.history ++ es)
    (hes : ∀ event ∈ es, ¬ event.concerns k)
    (hstored : Stored C w' k (last_finished k w.history) x) : Settled C w' k c (since ++ es) := by
  rw [← last_finished_append_of_not_concerns hes, ← hhist] at hstored
  refine .inr ⟨x, hstored, fun c t hmem => ?_, fun t ht => (h.succeeded t ht).append es⟩
  rcases mem_append.mp hmem with hold | hnew
  · exact h.latest c t hold
  · exact hes _ hnew rfl

/-- An element of a list that was extended is in the old part or in the new one. -/
theorem append_eq_append_cons {α : Type} {l es before since : List α} {a : α}
    (h : l ++ es = before ++ a :: since) :
    (∃ mid, l = before ++ a :: mid ∧ since = mid ++ es) ∨
      ∃ mid, before = l ++ mid ∧ es = mid ++ a :: since := by
  rcases append_eq_append_iff.mp h with ⟨mid, hbefore, hes⟩ | ⟨mid, hl, hcons⟩
  · exact .inr ⟨mid, hbefore, hes⟩
  cases mid with
  | nil => exact .inr ⟨[], by rw [hl, append_nil, append_nil], hcons.symm⟩
  | cons b mid =>
    injection hcons with hb hmid
    exact .inl ⟨mid, by rw [hl, hb], hmid⟩

/-- There is one last acquisition of a key. -/
theorem last_acquisition {history before before' since' : List (Event O)} {c' : ChannelId}
    {t' : Instant} (h : history = before ++ .acquired k c t :: since)
    (h' : history = before' ++ .acquired k c' t' :: since')
    (hlast : ∀ c t, .acquired k c t ∉ since) (hlast' : ∀ c t, .acquired k c t ∉ since') :
    c = c' ∧ since = since' := by
  have hend : ∀ {mid s s' : List (Event O)} {a a' : Event O}, a :: s = mid ++ a' :: s' → a' ∉ s →
      a = a' ∧ s = s' := by
    intro mid s s' a a' heq hno
    cases mid with
    | nil => exact cons.inj heq
    | cons b mid =>
      rw [(cons.inj heq).2] at hno
      exact absurd (mem_append_right mid mem_cons_self) hno
  rw [h, append_eq_append_iff] at h'
  rcases h' with ⟨mid, -, hmid⟩ | ⟨mid, -, hmid⟩
  · obtain ⟨hevent, hsince⟩ := hend hmid (hlast c' t')
    exact ⟨(Event.acquired.inj hevent).2.1, hsince⟩
  · obtain ⟨hevent, hsince⟩ := hend hmid (hlast' c t)
    exact ⟨(Event.acquired.inj hevent).2.1.symm, hsince.symm⟩

omit [RetainedOutcome O V] in
theorem append_mem_elim {l mid rest : List (Event O)} {event : Event O} (h : event ∉ l) :
    l ≠ mid ++ event :: rest := by
  rintro rfl
  exact h (mem_append_right mid mem_cons_self)

/-- A reservation stays the last acquisition of its key while nothing is acquired and it is not
finished. -/
theorem Linked.append (h : Linked w) (hhist : w'.history = w.history ++ es)
    (hno : ∀ k c t, .acquired k c t ∉ es)
    (hreserved : ∀ k e generation changed, find_entry k w'.store.state.entries = some e →
      e.state = .reserved generation changed →
        (∃ e₀, find_entry k w.store.state.entries = some e₀ ∧ e₀.state = e.state) ∧
        ∀ outcome x, .finished k changed outcome x ∉ es) : Linked w' := by
  intro k e generation changed hfind hstate
  obtain ⟨⟨e₀, hfind₀, hstate₀⟩, hpending⟩ := hreserved k e generation changed hfind hstate
  obtain ⟨before, t, since, hold, hlast, hunfinished⟩ :=
    h k e₀ generation changed hfind₀ (hstate₀.trans hstate)
  refine ⟨before, t, since ++ es, ?_, fun c t hmem => ?_, fun outcome x hmem => ?_⟩
  · rw [hhist, hold, append_assoc, cons_append]
  · exact (mem_append.mp hmem).elim (hlast c t) (hno k c t)
  · exact (mem_append.mp hmem).elim (hunfinished outcome x) (hpending outcome x)

section

variable (h : Guarding C w) (hclock : w.clock ≤ w'.clock)

include h hclock

/-- **The induction step**: it is enough to say what becomes of a key that is guarded, and that a
key which is acquired is guarded from then on and was not before. -/
theorem Guarding.append
    (hhist : w'.history = w.history ++ es) (hlinked : Linked w')
    (hnew : ∀ mid k c t rest, es = mid ++ .acquired k c t :: rest →
      (∀ k c t, .acquired k c t ∉ mid) ∧ Settled C w' k c rest ∧
        ∀ c₀ t₀ before since, w.history = before ++ .acquired k c₀ t₀ :: since →
          GivenUp k c₀ (since ++ mid) t)
    (hguard : ∀ k c t before since x, w.history = before ++ .acquired k c t :: since →
      (∀ t, x = some t → w'.clock < t) → Guarded C w k c since x →
        Settled C w' k c (since ++ es)) : Guarding C w' where
  linked := hlinked
  guards := by
    intro k c t before since hw'
    rw [hhist] at hw'
    rcases append_eq_append_cons hw' with ⟨mid, hold, rfl⟩ | ⟨mid, -, hes⟩
    · rcases h.guards k c t before mid hold with hgone | ⟨x, hg⟩
      · exact .inl (hgone.later es hclock)
      rcases hg.given_up_or_live w'.clock with hgone | hlive
      · exact .inl (hgone.later es le_rfl)
      · exact hguard k c t before mid x hold hlive hg
    · exact (hnew mid k c t since hes).2.1
  ended := by
    intro k c c' t t' before since later hw'
    rw [hhist, ← cons_append, ← append_assoc] at hw'
    rcases append_eq_append_cons hw' with ⟨mid, hold, -⟩ | ⟨mid, hfirst, hes⟩
    · refine h.ended k c c' t t' before since mid ?_
      rw [hold, append_assoc, cons_append]
    -- the second acquisition is new, so the first one is old
    obtain ⟨hno, -, hgone⟩ := hnew mid k c' t' later hes
    rcases append_eq_append_cons hfirst.symm with ⟨old, hold, rfl⟩ | ⟨old, -, hmid⟩
    · exact hgone c t before old hold
    · exact absurd hmid (append_mem_elim (hno k c t))

/-- A step that does not concern any key keeps the guard, if what is stored stays stored. -/
theorem Guarding.unconcerned
    (hhist : w'.history = w.history ++ es) (hes : ∀ event ∈ es, ∀ k, ¬ event.concerns k)
    (hreserved : ∀ k e generation changed, find_entry k w'.store.state.entries = some e →
      e.state = .reserved generation changed →
        ∃ e₀, find_entry k w.store.state.entries = some e₀ ∧ e₀.state = e.state)
    (hguard : ∀ k c since x, (∀ t, x = some t → w'.clock < t) → Guarded C w k c since x →
      Stored C w' k (last_finished k w.history) x) : Guarding C w' := by
  have hno : ∀ k c t, .acquired k c t ∉ es := fun k c t hmem => hes _ hmem k rfl
  refine h.append hclock hhist (h.linked.append hhist hno ?_)
    (fun mid k c t rest heq => absurd heq (append_mem_elim (hno k c t))) ?_
  · intro k e generation changed hfind hstate
    exact ⟨hreserved k e generation changed hfind hstate, fun _ _ hmem => hes _ hmem k rfl⟩
  · intro k c t before since x _ hx hg
    exact hg.frame hhist (fun event he => hes event he k) (hguard k c since x hx hg)

theorem Guarding.congr
    (hhist : w'.history = w.history) (hstore : w'.store = w.store) (hopened : w'.opened = w.opened)
    (hdisk : w'.disk = w.disk) : Guarding C w' := by
  have hhist' : w'.history = w.history ++ [] := by rw [hhist, append_nil]
  refine h.unconcerned hclock hhist' nofun ?_ ?_
  · intro k e generation changed hfind hstate
    rw [hstore] at hfind
    exact ⟨e, hfind, rfl⟩
  · intro k c since x _ hg
    exact ⟨by rw [hstore, hopened]; exact hg.memory, by rw [hdisk]; exact hg.disk⟩

end

/-- A step that ends a reservation: nothing is reserved under its key any more, and every other key
keeps its entry. -/
theorem Guarding.ends (h : Guarding C w) (hclock : w'.clock = w.clock)
    (hhist : w'.history = w.history ++ es) {changed : ChannelId}
    (hes : ∀ event ∈ es, event.ends k changed) {entry : Entry O} {generation : ℕ}
    (hentry : find_entry k w.store.state.entries = some entry)
    (hreserved : entry.state = .reserved generation changed) (helsewhere : ∀ k', k' ≠ k →
      find_entry k' w'.store.state.entries = find_entry k' w.store.state.entries)
    (hhere : ∀ e, find_entry k w'.store.state.entries = some e → e.state.channel = none)
    (hmine : ∀ since x, (∀ outcome x, .finished k changed outcome x ∉ since) →
      Guarded C w k changed since x → Settled C w' k changed (since ++ es))
    (hother : ∀ k' c since x, k' ≠ k → Guarded C w k' c since x →
      Stored C w' k' (last_finished k' w.history) x) : Guarding C w' := by
  have hno : ∀ k c t, .acquired k c t ∉ es := fun k c t hmem => hes _ hmem
  obtain ⟨before₀, t₀, since₀, hold₀, hlast₀, hunfinished⟩ :=
    h.linked k entry generation changed hentry hreserved
  refine h.append hclock.ge hhist (h.linked.append hhist hno ?_)
    (fun mid k c t rest heq => absurd heq (append_mem_elim (hno k c t))) ?_
  · intro k' e generation changed' hfind hstate
    have hne : k' ≠ k := by
      rintro rfl
      have hnone := hhere e hfind
      rw [hstate] at hnone
      cases hnone
    exact ⟨⟨e, (helsewhere k' hne).symm.trans hfind, rfl⟩,
      fun _ _ hmem => (hes _ hmem).not_concerns hne rfl⟩
  intro k' c t before since x hold _ hk
  by_cases hne : k' = k
  · subst hne
    obtain ⟨rfl, rfl⟩ := last_acquisition hold hold₀ hk.latest hlast₀
    exact hmine since x hunfinished hk
  · exact hk.frame hhist (fun event he => (hes event he).not_concerns hne)
      (hother k' c since x hne hk)

/-! ## The steps -/

/-- A caller's time was read off the clock. -/
def Task.Timely (clock : Instant) : Task O → Prop
  | .looking _ now _ | .acquiring _ now => now ≤ clock
  | _ => True

/-- What else the invariant rests on. -/
structure Grounds (C : Codec V) (w : World O) : Prop where
  sound : Sound w
  durable : w.store.config.durable = true
  appendable : Appendable C w.store w.disk
  timely : ∀ i, (w.tasks i).Timely w.clock

/-- A section that persists keeps a key that it leaves alone. -/
theorem Guarded.persists (h : Guarded C w k c since x) (hg : Grounds C w) (hopen : w.opened)
    {α : Type} {won lost : α} {fallback : List (Entry O) → List (Entry O)}
    {result : α × Store O × Disk} (hstore : w'.store = result.2.1) (hdisk : w'.disk = result.2.2)
    (hp : Persists C w.store w.disk fault state won lost fallback result)
    (hkeep : ∀ e, find_entry k w.store.state.entries = some e →
      find_entry k state.entries = some e ∧ find_entry k result.2.1.state.entries = some e) :
    Stored C w' k (last_finished k w.history) x := by
  cases hw : w.store.writable with
  | false =>
    -- nothing can be written, and nothing will be
    obtain ⟨hw', hsame⟩ := hp.refused hw
    refine ⟨fun _ hwritable => ?_, by rw [hdisk, hsame]; exact h.disk⟩
    rw [hstore, hw'] at hwritable
    cases hwritable
  | true =>
    obtain ⟨e, hfind, hkeeps⟩ := h.memory hopen hw
    obtain ⟨hstate, hresult⟩ := hkeep e hfind
    rw [← hstore] at hresult
    refine ⟨fun _ _ => ⟨e, hresult, hkeeps⟩, ?_⟩
    rw [hdisk]
    exact Survives.persists C hp hg.durable hg.appendable hstate (fun d => hkeeps.recorded C)
      (.inl h.disk)

section

variable (h : Guarding C w)

include h

/-- A look drops only what has expired. -/
theorem Guarding.look (hg : Grounds C w) (task : ℕ) (request : Request)
    (hnow : now ≤ w.clock) : Guarding C (w.look task request now) := by
  have hsame := look_same_states request now hg.sound.unique
  refine h.unconcerned le_rfl (append_nil _).symm nofun ?_ ?_
  · intro k e generation changed hfind hstate
    obtain ⟨e₀, used, hfind₀, rfl⟩ := hsame.find_rev hfind
    exact ⟨e₀, find_of_find_cleanup hg.sound.unique hfind₀, rfl⟩
  intro k c since x hx hk
  refine ⟨fun hopen hw => ?_, hk.disk⟩
  obtain ⟨e, hfind, hkeeps⟩ := hk.memory hopen hw
  have hlive := hkeeps.live fun t ht => hnow.trans_lt (hx t ht)
  obtain ⟨used, hused⟩ := hsame.find (find_cleanup_of_live hg.sound.unique hfind hlive)
  exact ⟨_, hused, hkeeps.expires, hkeeps.safe⟩

theorem Guarding.down
    (hdisk : ∀ image ∈ disk.images, image ∈ w.disk.images) : Guarding C (w.down disk) := by
  refine h.unconcerned le_rfl (append_nil _).symm nofun ?_ ?_
  · intro k e generation changed hfind
    cases hfind
  · exact fun k c since x _ hk => ⟨nofun, fun image himage => hk.disk image (hdisk image himage)⟩

/-- A permit that is dropped leaves an unresolved entry in place of its reservation. -/
theorem Guarding.drop_section (hg : Grounds C w) (htask : (w.tasks task).permit? = some permit) :
    Guarding C (w.drop_section task permit) := by
  obtain ⟨entry, hentry, hmatch⟩ := hg.sound.matched task permit htask
  obtain ⟨hputs, -⟩ := drop_entry_files hg.durable hg.sound.entries hentry hmatch
  have hhist : (w.drop_section task permit).history = w.history ++ [] := by
    simp only [World.drop_section, if_pos hg.durable]
  refine h.unconcerned le_rfl hhist nofun ?_ ?_
  · intro k e generation changed hfind hstate
    by_cases hk : k = entry.identity
    · rw [hk] at hfind
      obtain rfl := some.inj (hputs.here.symm.trans hfind)
      cases hstate
    · exact ⟨e, (hputs.elsewhere k hk).symm.trans hfind, rfl⟩
  intro k c since x _ hk
  refine ⟨fun hopen hw => ?_, hk.disk⟩
  obtain ⟨e, hfind, hkeeps⟩ := hk.memory hopen hw
  by_cases hne : k = entry.identity
  · -- an unresolved entry that never expires
    refine ⟨entry.unresolve, by rw [hne]; exact hputs.here, .of_unresolved rfl ?_⟩
    exact hg.sound.eternal entry (mem_of_get hentry) (Permit.matches_channel hmatch)
  · exact ⟨e, (hputs.elsewhere k hne).trans hfind, hkeeps⟩

/-- Once the owner has abandoned its key, the guard has nothing to hold any more, whether the
removal is persisted or not. -/
theorem Guarding.abandon_persist (hg : Grounds C w) (hopen : w.opened) {changed : Option ChannelId}
    (htask : w.tasks task = .releasing permit changed) (fault : Fault) :
    Guarding C (w.abandon_persist C task permit changed fault) := by
  obtain ⟨-, hnone, -⟩ := hg.sound.releasing task permit changed htask
  refine h.unconcerned le_rfl rfl (recorded_unconcerned _ _) ?_ ?_
  · intro k e generation changed' hfind hstate
    rcases abandon_persist_from C hnone hfind with hold | hunresolved
    · exact ⟨e, hold, rfl⟩
    · cases hunresolved.symm.trans hstate
  · exact fun k c since x _ hk => hk.persists hg hopen rfl rfl (abandon_persist_persists C ..)
      fun e hfind => ⟨hfind, abandon_persist_keep C hnone hfind⟩

/-- The key that is taken out of memory is given up; every other one is left alone. -/
theorem Guarding.abandon_entry (hg : Grounds C w)
    (htask : (w.tasks task).permit? = some permit) : Guarding C (w.abandon_entry task permit) := by
  obtain ⟨entry, hentry, hmatch⟩ := hg.sound.matched task permit htask
  obtain ⟨-, -, changed, hreserved⟩ := Permit.matches_reserved hmatch
  obtain ⟨hun, -, -, hchannel⟩ := abandon_entry_matched hg.sound.unique hentry hmatch
  have hhist : (w.abandon_entry task permit).history
      = w.history ++ [.abandoned permit.identity changed] := by
    rw [World.abandon_entry, hchannel, hreserved]
    rfl
  refine h.ends rfl hhist (by simp [Event.ends]) hentry hreserved hun.elsewhere ?_ ?_ ?_
  · intro e hfind
    cases hun.here.symm.trans hfind
  · -- the owner gives its own reservation back
    exact fun since x _ _ => .inl (.inl (mem_append_right _ mem_cons_self))
  · refine fun k c since x hne hk => ⟨fun hopen hw => ?_, hk.disk⟩
    obtain ⟨e, hfind, hkeeps⟩ := hk.memory hopen hw
    exact ⟨e, (hun.elsewhere k hne).trans hfind, hkeeps⟩

end

variable {outcome : O}

theorem safe_of_expiry_eq_none
    (hrel : releases_reservation outcome = false) (hx : expiry store outcome now = none) :
    safety_relevant outcome = true := by
  unfold expiry at hx
  rw [hrel] at hx
  cases hsafe : safety_relevant outcome with
  | true => rfl
  | false => rw [hsafe] at hx; cases hx

theorem unsafe_of_expiry_eq_some
    (hx : expiry store outcome now = some t) : safety_relevant outcome = false := by
  unfold expiry at hx
  split at hx
  · nomatch hx
  · rename_i hkeep
    simp only [Bool.or_eq_true, not_or, Bool.not_eq_true] at hkeep
    exact hkeep.2

theorem Keeps.retain (store : Store O) (hrel : releases_reservation outcome = false)
    (entry : Entry O) (sequence : ℕ) (now : Instant) :
    Keeps (some outcome) (expiry store outcome now)
      (entry.retain sequence (expiry store outcome now) outcome) := by
  refine ⟨.inr rfl, fun hx outcome' s hs => ?_⟩
  have hsafe := safe_of_expiry_eq_none hrel hx
  injection hs with houtcome hs
  exact ⟨by rw [← hs, hsafe], by rw [houtcome], by rw [← houtcome, hsafe]⟩

theorem KeepsRecorded.after_finish {last : Option O} {d : DurableEntry V}
    (h : KeepsRecorded last none d) (hrel : releases_reservation outcome = false) (now : Instant) :
    KeepsRecorded (some outcome) (expiry store outcome now) d :=
  ⟨.inl (h.expires.elim id id), fun hx _ _ => ⟨outcome, rfl, safe_of_expiry_eq_none hrel hx⟩⟩

/-- **A finish** retains the outcome, releases the key, or leaves it unresolved; the key is free
only in the cases in which it is given up. -/
theorem Guarding.finish_section (h : Guarding C w) (hg : Grounds C w) (hopen : w.opened)
    (htask : (w.tasks task).permit? = some permit) (outcome : O) (now : Instant) (fault : Fault) :
    Guarding C (w.finish_section C task permit outcome now fault) := by
  obtain ⟨entry, hentry, hmatch⟩ := hg.sound.matched task permit htask
  obtain ⟨-, -, changed, hreserved⟩ := Permit.matches_reserved hmatch
  have hchannel : entry.state.channel = some changed := by rw [hreserved]; rfl
  obtain ⟨-, helsewhere, hhere⟩ :=
    finish_section_files C w.disk outcome now fault hg.sound.entries hentry hmatch hchannel
  have hpersists := finish_section_matched C w.disk outcome now fault hentry hmatch hchannel
  -- the finish, and maybe that it is recorded
  obtain ⟨marks, hmarks, hhist⟩ : ∃ marks : List (Event O),
      (∀ event ∈ marks, ∃ c, event = .recorded c) ∧
      (w.finish_section C task permit outcome now fault).history = w.history
        ++ (.finished permit.identity changed outcome (expiry w.store outcome now) :: marks) := by
    rcases hhere with ⟨hres, -⟩ | ⟨hres, -⟩
    · refine ⟨[.recorded changed], fun event he => ⟨_, mem_singleton.mp he⟩, ?_⟩
      rw [World.finish_section, hres]
      rfl
    · refine ⟨[], forall_mem_nil _, ?_⟩
      rw [World.finish_section, hres]
      rfl
  obtain ⟨-, hstate, hmine⟩ := finish_state_files outcome now hg.sound.entries hentry
  have hes : ∀ event ∈
      .finished permit.identity changed outcome (expiry w.store outcome now) :: marks,
        event.ends permit.identity changed := by
    intro event he
    rcases mem_cons.mp he with rfl | he
    · exact ⟨rfl, rfl⟩
    · obtain ⟨c, rfl⟩ := hmarks event he
      trivial
  refine h.ends rfl hhist hes hentry hreserved helsewhere ?_ ?_ ?_
  · -- the permit's own entry is not a reservation any more
    intro e hfind
    rcases hhere with ⟨-, -, ⟨-, hnone⟩ | ⟨-, sequence, hsome⟩⟩ | ⟨-, e', hsome, hunresolved, -⟩
    · cases hnone.symm.trans hfind
    · obtain rfl := some.inj (hsome.symm.trans hfind)
      rfl
    · obtain rfl := some.inj (hsome.symm.trans hfind)
      rw [hunresolved]
      rfl
  · intro since x hunfinished hk
    obtain rfl : x = none := by
      cases x with
      | none => rfl
      | some t =>
        obtain ⟨outcome', before', later, hsince, -⟩ := hk.succeeded t rfl
        exact absurd hsince (append_mem_elim (hunfinished outcome' _))
    rcases hmine with ⟨hrel, -⟩ | ⟨hrel, sequence, hretained⟩
    · -- an outcome that releases the reservation
      exact .inl (.inr (.inl ⟨outcome, _, mem_append_right _ mem_cons_self, hrel⟩))
    have hlast : last_finished permit.identity
        (w.finish_section C task permit outcome now fault).history = some outcome := by
      rw [hhist, ← singleton_append, ← append_assoc, last_finished_append_of_not_concerns,
        last_finished_concat]
      intro event he
      obtain ⟨c, rfl⟩ := hmarks event he
      exact id
    have hkeeps := Keeps.retain w.store hrel entry
    refine .inr ⟨expiry w.store outcome now, ⟨fun _ _ => ?_, ?_⟩, fun c t hmem => ?_,
      fun t ht => ?_⟩
    · rw [hlast]
      rcases hhere with ⟨-, -, ⟨hrel', -⟩ | ⟨-, sequence', hsome⟩⟩ |
        ⟨-, e', hsome, hunresolved, hexpires⟩
      · cases hrel.symm.trans hrel'
      · exact ⟨_, hsome, hkeeps sequence' now⟩
      · exact ⟨e', hsome, .of_unresolved hunresolved hexpires⟩
    · rw [hlast]
      exact Survives.persists C hpersists hg.durable hg.appendable hretained
        (fun d => (hkeeps sequence now).recorded C)
        (.inl (hk.disk.mono C fun d hd => hd.after_finish hrel now))
    · exact (mem_append.mp hmem).elim (hk.latest c t) (hes _)
    · exact ⟨outcome, since, marks, by rw [ht], hrel, unsafe_of_expiry_eq_some ht⟩
  · exact fun k c since x hne hk => hk.persists hg hopen rfl rfl hpersists
      fun e hfind => ⟨(hstate k hne).trans hfind, (helsewhere k hne).trans hfind⟩

/-- A key that is guarded still has its entry after a cleanup, so nobody acquires it. -/
theorem Guarded.find_cleanup (h : Guarded C w k c since x) (hg : Grounds C w) (hopen : w.opened)
    (hw : w.store.writable) (hnow : now ≤ w.clock) (hx : ∀ t, x = some t → w.clock < t) :
    ∃ e, find_entry k (cleanup_expired w.store.state now).entries = some e ∧
      Keeps (last_finished k w.history) x e := by
  obtain ⟨e, hfind, hkeeps⟩ := h.memory hopen hw
  have hlive := hkeeps.live fun t ht => hnow.trans_lt (hx t ht)
  exact ⟨e, find_cleanup_of_live hg.sound.unique hfind hlive, hkeeps⟩

/-- **A key that is absent was given up**, as long as the store can write. -/
theorem Guarding.given_up_of_absent (h : Guarding C w) (hg : Grounds C w) (hopen : w.opened)
    (hw : w.store.writable) (hnow : now ≤ w.clock)
    (hnone : find_entry k (cleanup_expired w.store.state now).entries = none)
    {before : List (Event O)} (hold : w.history = before ++ .acquired k c t :: since) :
    GivenUp k c since w.clock := by
  rcases h.guards k c t before since hold with hgone | ⟨x, hk⟩
  · exact hgone
  refine (hk.given_up_or_live w.clock).resolve_right fun hx => ?_
  obtain ⟨e, hfind, -⟩ := hk.find_cleanup hg hopen hw hnow hx
  cases hnone.symm.trans hfind

omit [RetainedOutcome O V] in
/-- The only event of an acquisition is that its key was acquired. -/
theorem Acquisition.events_eq_append {result : Acquisition} {c₀ : ChannelId} {t₀ : Instant}
    {mid rest : List (Event O)} (h : result.events request c₀ t₀ = mid ++ .acquired k c t :: rest) :
    mid = [] ∧ rest = [] ∧ k = request.identity ∧ c = c₀ ∧ t = t₀ ∧
      ∃ permit, result = .granted permit := by
  cases result with
  | failed | occupied => exact absurd h (append_mem_elim not_mem_nil)
  | granted permit =>
    cases mid with
    | nil =>
      obtain ⟨hevent, hrest⟩ := cons.inj h
      obtain ⟨hk, hc, ht⟩ := Event.acquired.inj hevent
      exact ⟨rfl, hrest.symm, hk.symm, hc.symm, ht.symm, permit, rfl⟩
    | cons event mid => exact absurd (cons.inj h).2 (append_mem_elim not_mem_nil)

omit [RetainedOutcome O V] in
theorem Acquisition.events_not_concerns (result : Acquisition) (c : ChannelId)
    (t : Instant) (hne : k ≠ request.identity) :
    ∀ event ∈ (result.events request c t : List (Event O)), ¬ event.concerns k := by
  intro event he
  cases result with
  | failed error => cases he
  | occupied => cases he
  | granted permit =>
    rw [mem_singleton.mp he]
    exact Ne.symm hne

/-- An acquisition that files a reservation: the key was given up before, and is guarded from here
on if the permit is granted. -/
theorem Guarding.acquire_files (h : Guarding C w) (hg : Grounds C w) (hopen : w.opened)
    (hw : w.store.writable) (task : ℕ) (hnow : now ≤ w.clock) (fault : Fault)
    (hnone : find_entry request.identity (cleanup_expired w.store.state now).entries = none) :
    Guarding C (w.acquire C task request now fault) := by
  obtain ⟨-, -, helsewhere, hgranted, hfailed⟩ :=
    Idempotency.acquire_files C w.disk w.next_channel fault hg.sound.entries hw hnone
  have hhist : (w.acquire C task request now fault).history = w.history
      ++ ((evictions (cleanup_expired w.store.state now).entries
          (make_space w.store request now).entries).map .evicted
        ++ (acquire C w.store w.disk request now w.next_channel fault).1.events request
          w.next_channel w.clock) := by
    rw [World.acquire, World.evicted, hw, hnone, append_assoc]
    rfl
  have hother : ∀ {k : Key}, k ≠ request.identity → ∀ event ∈ ((acquire C w.store w.disk
      request now w.next_channel fault).1.events request w.next_channel w.clock : List (Event O)),
        ¬ event.concerns k :=
    fun hne => Acquisition.events_not_concerns _ _ _ hne
  refine h.append le_rfl hhist ?_ ?_ ?_
  · intro k e generation changed hfind hstate
    by_cases hk : k = request.identity
    · -- the entry that was just filed is a reservation only if it is granted
      subst hk
      cases hres : (acquire C w.store w.disk request now w.next_channel fault).1 with
      | failed | occupied => cases (hfailed (by rw [hres]; rfl) e hfind).1.symm.trans hstate
      | granted permit =>
        obtain rfl := some.inj ((hgranted permit hres).2.symm.trans hfind)
        cases hstate
        rw [hres, ← append_assoc] at hhist
        exact ⟨_, w.clock, [], hhist, fun _ _ => not_mem_nil, fun _ _ => not_mem_nil⟩
    have hspace := (helsewhere k hk).symm.trans hfind
    obtain ⟨before, t, since, hold, hlast, hunfinished⟩ := h.linked k e generation changed
      (find_of_find_make_space hg.sound.unique hspace) hstate
    rw [hold, append_assoc, cons_append] at hhist
    refine ⟨before, t, _, hhist, fun c t hmem => ?_, fun outcome x hmem => ?_⟩
    · rcases mem_append.mp hmem with hmem | hmem
      · exact hlast c t hmem
      · exact (mem_append.mp hmem).elim (by simp) (hother hk _ · rfl)
    · rcases mem_append.mp hmem with hmem | hmem
      · exact hunfinished outcome x hmem
      · exact (mem_append.mp hmem).elim (by simp) (hother hk _ · rfl)
  · intro mid k c t rest heq
    rcases append_eq_append_cons heq with ⟨mid', hkeys, -⟩ | ⟨mid', rfl, hevents⟩
    · exact absurd hkeys (append_mem_elim (by simp))
    obtain ⟨rfl, rfl, rfl, rfl, rfl, permit, hres⟩ := Acquisition.events_eq_append hevents
    rw [append_nil]
    refine ⟨by simp,
      .inr ⟨none, ⟨fun _ _ => ?_, ?_⟩, fun _ _ => not_mem_nil, nofun⟩,
      fun c₀ t₀ before since hold =>
        (h.given_up_of_absent hg hopen hw hnow hnone hold).later _ le_rfl⟩
    · exact ⟨_, (hgranted permit hres).2, .of_eternal nofun rfl⟩
    · exact survives_of_granted C hg.durable hg.appendable hg.sound.entries hres
        fun sequence d hd => Keeps.recorded C (.of_eternal nofun rfl) hd
  intro k c t before since x hold hx hk
  obtain ⟨e, hclean, hkeeps⟩ := hk.find_cleanup hg hopen hw hnow hx
  have hne : k ≠ request.identity := by
    rintro rfl
    cases hnone.symm.trans hclean
  rcases find_make_space request hg.sound.unique hclean with hspace | ⟨hgone, hevict⟩
  · have hes : ∀ event : Event O, event ∈ (evictions (cleanup_expired w.store.state now).entries
        (make_space w.store request now).entries).map .evicted
          ++ (acquire C w.store w.disk request now w.next_channel fault).1.events
            request w.next_channel w.clock → ¬ event.concerns k := by
      intro event he
      rcases mem_append.mp he with he | he
      · obtain ⟨k', hk', rfl⟩ := mem_map.mp he
        rintro rfl
        cases (mem_evictions.mp hk').2.symm.trans hspace
      · exact hother hne event he
    refine hk.frame hhist hes ⟨fun _ _ => ?_, ?_⟩
    · exact ⟨e, (helsewhere k hne).trans hspace, hkeeps⟩
    · exact hk.disk.acquire C w.next_channel fault hg.durable hg.appendable hg.sound.entries
        (fun _ => ⟨hne, hspace⟩) fun d => hkeeps.recorded C
  -- only a success can be evicted, and that ends it
  cases x with
  | none => cases hkeeps.not_evictable.symm.trans hevict
  | some t =>
    have hmem : k ∈ evictions (cleanup_expired w.store.state now).entries
        (make_space w.store request now).entries :=
      mem_evictions.mpr ⟨by rw [hclean]; rfl, hgone⟩
    exact .inl ((hk.succeeded t rfl).evicted (mem_append_left _ (mem_map_of_mem hmem)))

/-- **An acquisition** keeps the guard, granted or not. -/
theorem Guarding.acquire (h : Guarding C w) (hg : Grounds C w) (hopen : w.opened)
    (task : ℕ) (hnow : now ≤ w.clock) (fault : Fault) :
    Guarding C (w.acquire C task request now fault) := by
  rcases acquire_cases C w.store w.disk request now w.next_channel fault with
    ⟨hw, hres⟩ | ⟨hw, hsome, hres⟩ | ⟨hw, hnone, -⟩ | ⟨hw, hnone, -⟩
  · have hevicted : w.evicted request now = [] := by
      rw [World.evicted, hw]
      rfl
    refine h.congr le_rfl ?_ ?_ rfl ?_ <;> rw [World.acquire, hres]
    rw [hevicted, append_nil]
    exact append_nil _
  · have hevicted : w.evicted request now = [] := by
      rw [World.evicted, ← not_isSome, hsome, Bool.not_true, Bool.and_false]
      rfl
    have hhist : (w.acquire C task request now fault).history = w.history ++ [] := by
      simp only [World.acquire, hres, hevicted, Acquisition.events, append_nil]
    refine h.unconcerned le_rfl hhist nofun ?_ ?_ <;> rw [World.acquire, hres]
    · intro k e generation changed hfind hstate
      exact ⟨e, find_of_find_cleanup hg.sound.unique hfind, rfl⟩
    · intro k c since x hx hk
      exact ⟨fun hopen hw => hk.find_cleanup hg hopen hw hnow hx, hk.disk⟩
  · exact h.acquire_files hg hopen hw task hnow fault hnone
  · exact h.acquire_files hg hopen hw task hnow fault hnone

/-- The resolver of a reopen tells the truth: for a value the ledger has retained under a key, it
returns nothing, or the outcome the key was last finished with. -/
def Honest (C : Codec V) (w : World O) : Action O V → Prop
  | .reopen resolve loaded_at _ _ _ => ∀ l d value outcome,
      load C loaded_at w.disk.file = .ok (some l) → d ∈ l.entries → d.state = .retained value →
        resolve value = some outcome → ∀ last, last_finished d.identity w.history = some last →
          outcome = last
  | _ => True

/-- **A reopening** with an honest resolver: every entry that was guarded is on the disk, so it
comes back, as a reservation that is unresolved or as the outcome it was. -/
theorem Guarding.reopen (h : Guarding C w) (hg : Grounds C w) {resolve : V → Option O}
    {loaded_at validated_at : Instant} (hclock : w.clock ≤ now) (hnow : validated_at ≤ now)
    (hhonest : Honest C w (.reopen resolve loaded_at validated_at now fault)) :
    Guarding C (w.reopen C resolve loaded_at validated_at now fault) := by
  refine h.unconcerned hclock rfl (restorations_unconcerned _) ?_ ?_
  · intro k e generation changed hfind hstate
    have hnone := open_durable_unreserved C resolve loaded_at validated_at now fault e
      (mem_of_get hfind)
    rw [hstate] at hnone
    cases hnone
  intro k c since x hx hk
  have hfile : w.disk.file ∈ w.disk.images := mem_cons_self
  rcases open_durable_cases C w.disk resolve loaded_at validated_at now fault with
    ⟨issue, -, hres⟩ | ⟨entries, hopened, hcases⟩
  · -- a ledger that cannot be used is left alone, and nothing is given out
    rw [World.reopen, hres]
    exact ⟨nofun, hk.disk⟩
  rcases open_journal_entries C hopened with ⟨hload, -⟩ | ⟨l, hload, rfl, -⟩
  · obtain ⟨l, d, hl, -⟩ := hk.disk _ hfile _ _ hload
    cases hl
  obtain ⟨l', d, hl, hd, hkeeps⟩ := hk.disk _ hfile _ _ hload
  obtain rfl := some.inj hl
  have hdk : d.identity = k := key_of_get hd
  have hmem : d ∈ l.entries := mem_of_get hd
  obtain ⟨hfind, hentries⟩ := open_durable_files C resolve hnow fault hopened hmem (hkeeps.live hx)
  rw [hdk] at hfind
  have hrestored : Keeps (last_finished k w.history) x (restore_entry resolve d) := by
    refine hkeeps.restore fun value outcome hvalue hresolve last hlast => ?_
    rw [← hdk] at hlast
    exact hhonest l d value outcome hload hmem hvalue hresolve last hlast
  refine ⟨fun _ _ => ⟨_, ?_, hrestored⟩, ?_⟩
  · rw [World.reopen, hentries]
    exact hfind
  have happend : Appendable C (restored_store resolve now
      (open_journal C loaded_at validated_at w.disk).1 l.entries) w.disk :=
    (appendable_rule C).load loaded_at validated_at hg.appendable rfl
  have hpersist : Survives C k (KeepsRecorded (last_finished k w.history) x)
      (persist_locked C (restored_store resolve now
        (open_journal C loaded_at validated_at w.disk).1 l.entries) w.disk fault).2.2 :=
    Survives.persist C rfl happend hfind (fun d => hrestored.recorded C) (.inl hk.disk)
  rcases hcases with
    ⟨-, hres⟩ | ⟨-, ⟨u, store', disk', hpl, hres⟩ | ⟨e, store', disk', hpl, hres⟩⟩ <;>
    rw [World.reopen, hres]
  · exact hk.disk
  · rw [hpl] at hpersist
    exact hpersist
  · rw [hpl] at hpersist
    exact hpersist

/-! ## Runs -/

omit [RetainedOutcome O V] in
theorem Task.Timely.update {tasks : ℕ → Task O} {clock : Instant}
    (h : ∀ i, (tasks i).Timely clock) (task : ℕ) {t : Task O} (ht : t.Timely clock) :
    ∀ i, (Function.update tasks task t i).Timely clock := by
  intro i
  by_cases hi : i = task
  · rw [hi, Function.update_self]
    exact ht
  · rw [Function.update_of_ne hi]
    exact h i

omit [RetainedOutcome O V] in
theorem Task.Timely.mono {t : Task O} {clock later : Instant} (h : t.Timely clock)
    (hle : clock ≤ later) : t.Timely later := by
  cases t with
  | looking | acquiring => exact le_trans h hle
  | _ => trivial

variable {a : Action O V}

/-- No task is ahead of the clock. -/
theorem timely_step (h : ∀ i, (w.tasks i).Timely w.clock)
    (hstep : step C w a = some w') : ∀ i, (w'.tasks i).Timely w'.clock := by
  cases step_inv C hstep with
  | reserve hopen htask hnow =>
    refine Task.Timely.update h _ ?_
    split
    · exact hnow
    · trivial
  | @look task request now released hopen hlock htask =>
    have hnow := h task
    rw [htask] at hnow
    refine Task.Timely.update h _ ?_
    cases (look w.store.state request now).2 with
    | absent => exact hnow
    | _ => trivial
  | @wake task request changed =>
    refine Task.Timely.update h _ ?_
    cases w.channels changed with
    | replay => trivial
    | unresolved => trivial
    | released | pending => exact le_refl w.clock
  | @acquire task request now fault hopen hlock htask =>
    have hnow := h task
    rw [htask] at hnow
    refine Task.Timely.update h _ ?_
    cases (acquire C w.store w.disk request now w.next_channel fault).1 with
    | occupied => exact hnow
    | _ => trivial
  | @finish_section task permit outcome now fault =>
    refine Task.Timely.update h _ ?_
    cases (Idempotency.finish_section C w.store w.disk permit outcome now fault).1 <;> trivial
  | time_out | abandon_entry | abandon_persist | drop_section | cancel =>
    exact Task.Timely.update h _ trivial
  | leave hopen htask hleaves => exact Task.Timely.update h _ (by cases hleaves <;> trivial)
  | @advance duration => exact fun i => (h i).mono (Nat.le_add_right _ _)
  | crash | exit => exact fun _ => trivial
  | reopen hdurable hclosed hloaded hvalidated hnow =>
    exact fun i => (h i).mono (hloaded.trans (hvalidated.trans hnow))

theorem Grounds.step (h : Grounds C w) (hstep : step C w a = some w') :
    Grounds C w' where
  sound := h.sound.step C hstep
  durable := step_durable C h.durable h.sound hstep
  appendable := step_ledger (appendable_rule C) h.appendable hstep
  timely := timely_step h.timely hstep

/-- **One step keeps every key that is not free.** -/
theorem Guarding.step (h : Guarding C w) (hg : Grounds C w)
    (hhonest : Honest C w a) (hstep : step C w a = some w') : Guarding C w' := by
  cases step_inv C hstep with
  | reserve | wake | time_out | leave | cancel => exact h.congr le_rfl rfl rfl rfl rfl
  | @look task request now released hopen hlock htask =>
    have hnow := hg.timely task
    rw [htask] at hnow
    exact h.look hg task request hnow
  | @acquire task request now fault hopen hlock htask =>
    have hnow := hg.timely task
    rw [htask] at hnow
    exact h.acquire hg hopen task hnow fault
  | finish_section hopen hlock htask => exact h.finish_section hg hopen (by rw [htask]; rfl) _ _ _
  | abandon_entry hopen hlock htask => exact h.abandon_entry hg (by rw [htask]; rfl)
  | abandon_persist hopen htask => exact h.abandon_persist hg hopen htask _
  | drop_section hopen hlock hpermit => exact h.drop_section hg hpermit
  | advance => exact h.congr (Nat.le_add_right _ _) rfl rfl rfl rfl
  | @crash image hdurable himage =>
    refine h.down fun image' himage' => ?_
    rw [mem_singleton.mp himage']
    exact himage
  | exit => exact h.down fun _ himage => himage
  | reopen hdurable hclosed hloaded hvalidated hnow hmax =>
    exact h.reopen hg (hloaded.trans (hvalidated.trans hnow)) hnow hhonest

end

/-- The worlds that runs of a durable store lead to, from any ledger, with resolvers that tell the
truth. -/
abbrev ReachedHonest (w : World O) : Prop :=
  Reachable (fun w : World O => Initial w ∧ w.store.config.durable = true) (step C) (Honest C) w

variable {C} in
/-- **The guard holds in every run** with honest resolvers, by induction on its steps. -/
theorem ReachedHonest.guarding {w : World O} (h : ReachedHonest C w) : Guarding C w := by
  have hboth : Grounds C w ∧ Guarding C w := by
    refine Reachable.invariant (I := fun w => Grounds C w ∧ Guarding C w) ?_ ?_ h
    · rintro w ⟨hinit, hdurable⟩
      refine ⟨⟨?_, hdurable, ?_, fun i => ?_⟩, ?_, ?_, ?_⟩
      · exact hinit.sound
      · rw [hinit.store]
        exact nofun
      · rw [hinit.tasks]
        trivial
      · intro k e generation changed hfind
        rw [hinit.store] at hfind
        cases hfind
      · intro k c t before since hw
        rw [hinit.history] at hw
        exact absurd hw (append_mem_elim not_mem_nil)
      · intro k c c' t t' before since later hw
        rw [hinit.history] at hw
        exact absurd hw (append_mem_elim not_mem_nil)
    · rintro w a w' ⟨hg, h⟩ hhonest hstep
      exact ⟨hg.step hstep, h.step hg hhonest hstep⟩
  exact hboth.2

/-- **A key is not given out twice.** In every run of a durable store, whatever writes fail and
whenever the machine goes down, between two acquisitions of one key the first owner has given it
up: abandoned it, finished it with an outcome that releases it, or finished it with a success that
is not safety relevant and that has expired by the second acquisition or was evicted before it. -/
theorem acquired_again_after_given_up {w : World O} (h : ReachedHonest C w) {k : Key}
    {c c' : ChannelId} {t t' : Instant} {before since later : List (Event O)}
    (hhistory : w.history = before ++ .acquired k c t :: (since ++ .acquired k c' t' :: later)) :
    GivenUp k c since t' :=
  h.guarding.ended k c c' t t' before since later hhistory

/-- Reserve a key and abandon it, restart, and reserve it again. -/
def reserve_abandon_reserve : List (Action (CommandOutcome Unit) CommandId) :=
  reserve_and_abandon ++ [.exit, .reopen (fun _ => none) 1 1 1 .none, .reserve 1 sample_request 1,
    .look 1, .acquire 1 .none]

/-- A key that was abandoned is given out again after a restart. -/
theorem acquired_again_after_given_up_by_abandon :
    ∃ w : World (CommandOutcome Unit),
      run (step command_codec) (World.start .open_durable ⟨none, []⟩ 0) reserve_abandon_reserve
        = some w ∧
      w.history = [] ++ .acquired sample_request.identity 0 0 ::
        ([.abandoned sample_request.identity 0, .recorded 0] ++
          .acquired sample_request.identity 1 1 :: []) ∧
      GivenUp sample_request.identity 0
        ([.abandoned sample_request.identity 0, .recorded 0] : List (Event (CommandOutcome Unit)))
        1 := by
  obtain ⟨w, hrun, hhistory⟩ : ∃ w ∈ run (step command_codec) (World.start .open_durable ⟨none, []⟩ 0)
      reserve_abandon_reserve, w.history = [] ++ .acquired sample_request.identity 0 0 ::
        ([.abandoned sample_request.identity 0, .recorded 0] ++
          .acquired sample_request.identity 1 1 :: []) := by
    decide +kernel
  have hsilent : ∀ (w : World (CommandOutcome Unit)) (loaded_at validated_at now) (fault : Fault),
      Honest command_codec w (.reopen (fun _ => none) loaded_at validated_at now fault) :=
    fun _ _ _ _ _ _ _ _ _ _ _ _ hresolve => by cases hresolve
  have hhonest : ∀ a ∈ reserve_abandon_reserve, ∀ w, Honest command_codec w a := by
    intro a ha w
    simp only [reserve_abandon_reserve, reserve_and_abandon, cons_append, nil_append,
      mem_cons, not_mem_nil, or_false] at ha
    rcases ha with rfl | rfl | rfl | rfl | rfl | rfl | rfl | rfl | rfl | rfl | rfl | rfl
    all_goals first | exact True.intro | exact hsilent w _ _ _ _
  have hreached : ReachedHonest command_codec w :=
    reachable_of_run (.start ⟨Initial.start ⟨none, []⟩ (by decide), rfl⟩) hhonest hrun
  exact ⟨w, hrun, hhistory, acquired_again_after_given_up command_codec hreached hhistory⟩

end BobbyBrowser.Idempotency
