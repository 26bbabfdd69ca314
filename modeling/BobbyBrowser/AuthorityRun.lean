/-
Which bearers authenticate after a restart.

A revocation takes the bearers of its principal out of the live store first, and out
of the file then. An issue that was enrolled before the first of the two and is
persisted after the second leaves a record that the revocation has not seen. Without
such an issue a stopped bearer stays stopped, and what was issued and not revoked is
restored while it fits.
-/
import BobbyBrowser.Authority
import BobbyBrowser.Keyed
import BobbyBrowser.Wire

set_option autoImplicit false

namespace BobbyBrowser.Authority

open Option hiding map_map
open List hiding getElem?_eq_some_iff
open Lines (Bytes)
open Transition
open Keyed (Unique)

variable {hash : Bytes32} {now : Instant} {store' : AuthorityStore}
  {principal : PrincipalId} {p : Process} {stopped : List Bytes32} {issue : Issue} {s t : State}

section

variable {coding : Coding}

/-! ## Records and their hashes -/

@[simp] theorem decode_persisted (issue : Issue) :
    coding.decode_hash (persisted coding issue).token_hash_hex = some (coding.hash issue.token) := by
  unfold Coding.decode_hash persisted
  simp only [coding.hex_decode_encode]
  rw [dif_pos (coding.hash issue.token).2]

variable {records : List PersistedRecord}

theorem compact_sublist (records : List PersistedRecord) (now : Instant) :
    (compact records now).Sublist records :=
  filter_sublist

@[simp] theorem loaded_written (records : List PersistedRecord) :
    loaded coding (some (coding.to_vec_pretty records)) = records := by
  unfold loaded
  rw [bind_some, coding.from_slice_to_vec, getD_some]

/-! ## Enrolling -/

theorem enroll_hash_records (store : AuthorityStore) (record : AuthorityRecord) (now : Instant) :
    (store.enroll_hash record now).2.records.Sublist (store.records ++ [record]) := by
  unfold AuthorityStore.enroll_hash
  split
  · exact sublist_append_left _ _
  · simp only
    split
    · exact filter_sublist.trans (sublist_append_left _ _)
    · exact filter_sublist.append_right _

variable {store : AuthorityStore}

theorem enroll_hash_of_room {record : AuthorityRecord}
    (hexpires : now < record.expires_at) (hroom : store.records.length < store.capacity) :
    (store.enroll_hash record now) = (.ok (capability_handle record),
      { store with records := store.records.filter (AuthorityRecord.live now) ++ [record] }) := by
  unfold AuthorityStore.enroll_hash
  rw [if_neg (Nat.not_le.mpr hexpires)]
  rw [if_neg]
  have hle := length_filter_le (AuthorityRecord.live now) store.records
  omega

/-! ## Restoring -/

/-- The records that are to be restored, with the time of each turn. -/
abbrev Turns := List (PersistedRecord × Instant)

variable {turns : Turns}

/-- One turn of `restore`: the record is enrolled and the rest goes on, or the store is full and
stays as it is. Any other error fails the boot. -/
theorem restore_cons {record : PersistedRecord} {rest : Turns}
    (h : restore coding store ((record, now) :: rest) = some store') :
    ∃ hash, coding.decode_hash record.token_hash_hex = some hash ∧
      ((∃ handle, (store.enroll_hash (record.restored hash) now).1 = .ok handle ∧
          restore coding (store.enroll_hash (record.restored hash) now).2 rest = some store') ∨
        (∃ error, (store.enroll_hash (record.restored hash) now).1 = .error error ∧
          error.code = .resource_exhausted ∧
          store' = (store.enroll_hash (record.restored hash) now).2)) := by
  rw [restore] at h
  cases hhash : coding.decode_hash record.token_hash_hex with
  | none =>
    rw [hhash] at h
    nomatch h
  | some hash =>
    rw [hhash] at h
    refine ⟨hash, rfl, ?_⟩
    simp only at h
    generalize store.enroll_hash (record.restored hash) now = enrolled at h ⊢
    rcases enrolled with ⟨error | handle, next⟩
    · simp only at h
      split at h
      · rename_i hcode
        exact .inr ⟨error, rfl, hcode, (some.inj h).symm⟩
      · nomatch h
    · exact .inl ⟨handle, rfl, h⟩

/-- **When the records fit**, all that do not expire on the way are restored. -/
theorem restore_all (h : restore coding store turns = some store')
    (hfit : store.records.length + turns.length ≤ store.capacity) :
    (∀ live ∈ store.records, live.revoked = false →
      (∀ turn ∈ turns, turn.2 < live.expires_at) → live ∈ store'.records) ∧
    ∀ turn ∈ turns, ∀ hash, coding.decode_hash turn.1.token_hash_hex = some hash →
      (∀ other ∈ turns, other.2 < turn.1.expires_at) → turn.1.restored hash ∈ store'.records := by
  induction turns generalizing store with
  | nil =>
    cases h
    exact ⟨fun live hlive _ _ => hlive, nofun⟩
  | cons turn turns ih =>
    obtain ⟨record, now⟩ := turn
    rw [length_cons] at hfit
    obtain ⟨hash, hhash, hturn⟩ := restore_cons h
    by_cases hexpires : now < (record.restored hash).expires_at
    · have henroll := enroll_hash_of_room hexpires (by omega : store.records.length < store.capacity)
      rw [henroll] at hturn
      obtain ⟨handle, -, hrest⟩ := hturn.resolve_right (by
        rintro ⟨error, herror, -⟩
        nomatch herror)
      obtain ⟨hkeep, hall⟩ := ih hrest (by
        have hle := length_filter_le (AuthorityRecord.live now) store.records
        simp only [length_append, length_singleton]
        omega)
      constructor
      · intro live hlive hrevoked htimes
        refine hkeep live (mem_append_left _ (mem_filter.mpr ⟨hlive, ?_⟩)) hrevoked
          fun turn hturn => htimes turn (mem_cons_of_mem _ hturn)
        have hnow : now < live.expires_at := htimes _ mem_cons_self
        simp [AuthorityRecord.live, hnow, hrevoked]
      intro turn hturn other hother htimes
      rcases mem_cons.mp hturn with rfl | hturn
      · obtain rfl : hash = other := some.inj (hhash.symm.trans hother)
        exact hkeep _ (mem_append_right _ mem_cons_self) rfl
          fun turn hturn => htimes turn (mem_cons_of_mem _ hturn)
      · exact hall turn hturn other hother fun turn hturn =>
          htimes turn (mem_cons_of_mem _ hturn)
    -- a record that has expired since it was loaded fails the boot
    exfalso
    have hexpired : store.enroll_hash (record.restored hash) now =
        (.error authentication_error, store) := by
      unfold AuthorityStore.enroll_hash
      rw [if_pos (Nat.not_lt.mp hexpires)]
    rw [hexpired] at hturn
    rcases hturn with ⟨handle, hok, -⟩ | ⟨error, herror, hcode, -⟩
    · nomatch hok
    · rw [← Except.error.inj herror] at hcode
      nomatch hcode

/-! ## Whose bearers they are

The hashes in the store, in the records and in the issues under way, each with the principal it was
issued to. -/

/-- A hash and its principal. -/
abbrev Owner := Bytes32 × PrincipalId

/-- The owners in the live store. -/
def held (store : AuthorityStore) : List Owner :=
  store.records.map fun record => (record.token_hash, record.principal_id)

/-- The owners in persisted records. -/
def claimed (coding : Coding) (records : List PersistedRecord) : List Owner :=
  records.filterMap fun record =>
    (coding.decode_hash record.token_hash_hex).map fun hash => (hash, record.principal_id)

/-- The owners of issues under way. -/
def promised (coding : Coding) (issuing : List Issue) : List Owner :=
  issuing.map fun issue => (coding.hash issue.token, issue.principal_id)

theorem claimed_fst (records : List PersistedRecord) :
    (claimed coding records).map Prod.fst = hashes coding records := by
  unfold claimed hashes
  rw [map_filterMap]
  congr 1
  funext record
  cases coding.decode_hash record.token_hash_hex <;> rfl

theorem held_fst (store : AuthorityStore) :
    (held store).map Prod.fst = store.records.map AuthorityRecord.token_hash := by
  rw [held, map_map]
  rfl

theorem claimed_append (records more : List PersistedRecord) :
    claimed coding (records ++ more) = claimed coding records ++ claimed coding more :=
  filterMap_append

theorem claimed_persisted (issue : Issue) :
    claimed coding [persisted coding issue] = [(coding.hash issue.token, issue.principal_id)] := by
  simp only [claimed, filterMap_cons, decode_persisted, map_some, filterMap_nil]
  rfl

theorem claimed_sublist {records more : List PersistedRecord} (h : records.Sublist more) :
    (claimed coding records).Sublist (claimed coding more) :=
  h.filterMap _

/-- The owners of stored records are the hashes that decode, each with its principal. -/
theorem mem_claimed {owner : Owner} :
    owner ∈ claimed coding records ↔ ∃ record ∈ records,
      coding.decode_hash record.token_hash_hex = some owner.1 ∧ record.principal_id = owner.2 := by
  unfold claimed
  rw [mem_filterMap]
  constructor
  · rintro ⟨record, hrecord, howner⟩
    obtain ⟨hash, hhash, rfl⟩ := map_eq_some_iff.mp howner
    exact ⟨record, hrecord, hhash, rfl⟩
  · rintro ⟨record, hrecord, hhash, hprincipal⟩
    refine ⟨record, hrecord, ?_⟩
    rw [hhash, map_some, hprincipal]

@[simp] theorem held_revoke (store : AuthorityStore) (principal : PrincipalId) :
    held (store.revoke principal) = held store := by
  unfold held AuthorityStore.revoke
  rw [map_map]
  refine map_congr_left ?_
  intro record _
  simp only [Function.comp_apply]
  split <;> rfl

@[simp] theorem promised_spare (principal : PrincipalId) (issuing : List Issue) :
    promised coding (spare principal issuing) = promised coding issuing := by
  unfold promised spare
  rw [map_map]
  refine map_congr_left ?_
  intro issue _
  simp only [Function.comp_apply]
  split <;> rfl

/-- The records, with those of a principal marked as revoked. -/
def mark (principal : PrincipalId) (records : List PersistedRecord) : List PersistedRecord :=
  records.map fun record =>
    if record.principal_id = principal then { record with revoked := true } else record

@[simp] theorem claimed_mark (principal : PrincipalId) (records : List PersistedRecord) :
    claimed coding (mark principal records) = claimed coding records := by
  unfold claimed mark
  rw [filterMap_map]
  congr 1
  funext record
  simp only [Function.comp_apply]
  split <;> rfl

theorem ne_of_mem_mark
    {owner : Owner} (h : owner ∈ claimed coding (compact (mark principal records) now)) :
    owner.2 ≠ principal := by
  obtain ⟨record, hrecord, -, hprincipal⟩ := mem_claimed.mp h
  obtain ⟨hmarked, hlive⟩ := mem_filter.mp hrecord
  obtain ⟨before, -, rfl⟩ := mem_map.mp hmarked
  intro heq
  rw [← hprincipal] at heq
  split at hlive
  · simp at hlive
  · rename_i hne
    rw [if_neg hne] at heq
    exact hne heq

/-! ## One principal for each bearer -/

/-- No hash is stored twice, all are known, and each has one principal. -/
structure Agreed (known : List Bytes32) (live stored : List Owner) : Prop where
  nodup : (stored.map Prod.fst).Nodup
  known : ∀ owner ∈ live ++ stored, owner.1 ∈ known
  agree : ∀ owner ∈ live ++ stored, ∀ other ∈ live ++ stored, owner.1 = other.1 → owner.2 = other.2

section

variable {known : List Bytes32} {live live' stored stored' : List Owner}

/-- Owners may go, in memory and in the file. -/
theorem Agreed.shrink (h : Agreed known live stored) (hlive : live' ⊆ live)
    (hstored : List.Subperm stored' stored) : Agreed known live' stored' := by
  have hsubset : live' ++ stored' ⊆ live ++ stored :=
    append_subset.mpr ⟨Subset.trans hlive (subset_append_left _ _),
      Subset.trans hstored.subset (subset_append_right _ _)⟩
  refine ⟨?_, fun owner howner => h.known owner (hsubset howner),
    fun owner howner other hother => h.agree owner (hsubset howner) other (hsubset hother)⟩
  obtain ⟨middle, hperm, hsublist⟩ := hstored
  exact ((hperm.map Prod.fst).nodup_iff).mp (h.nodup.sublist (hsublist.map _))

/-- An owner whose hash is new may come, in both places. -/
theorem Agreed.add (h : Agreed known live stored) (owner : Owner) (hnew : owner.1 ∉ known) :
    Agreed (owner.1 :: known) (live ++ [owner]) (stored ++ [owner]) := by
  have hcases {other : Owner} (hother : other ∈ live ++ [owner] ++ (stored ++ [owner])) :
      other ∈ live ++ stored ∨ other = owner := by
    simp only [mem_append, mem_singleton] at hother ⊢
    tauto
  refine ⟨Unique.append_singleton h.nodup ?_, ?_, ?_⟩
  · intro hmem
    obtain ⟨other, hother, heq⟩ := mem_map.mp hmem
    exact hnew (heq ▸ h.known other (mem_append_right _ hother))
  · intro other hother
    rcases hcases hother with hother | rfl
    · exact mem_cons_of_mem _ (h.known other hother)
    · exact mem_cons_self
  intro first hfirst second hsecond heq
  rcases hcases hfirst with hold | rfl <;> rcases hcases hsecond with hold' | rfl
  · exact h.agree first hold second hold' heq
  · exact absurd (heq ▸ h.known first hold) hnew
  · exact absurd (heq ▸ h.known second hold') hnew
  · rfl

end

/-! ## Bearers that are stopped -/

/-- A bearer does not authenticate, is not about to be persisted, and has a record only of certain
principals. -/
structure Muted (coding : Coding) (mine : PrincipalId → Prop) (hash : Bytes32) (p : Process) :
    Prop where
  store : ∀ live ∈ p.store.records, live.token_hash = hash → live.revoked = true
  promised : ∀ owner ∈ promised coding p.issuing, owner.1 ≠ hash
  claimed : ∀ owner ∈ claimed coding p.records, owner.1 = hash → mine owner.2

variable {mine : PrincipalId → Prop}

/-- A muted bearer is refused at any time. -/
theorem Muted.authenticate {bearer : String}
    (h : Muted coding mine (coding.sha256 bearer) p) (now : Instant) :
    coding.authenticate p.store bearer now = .error authentication_error := by
  unfold Coding.authenticate AuthorityStore.authenticate
  split
  · rfl
  split
  · rfl
  · rename_i record hfind
    have hhash : record.token_hash = coding.sha256 bearer := by simpa using find?_some hfind
    have hrevoked := h.store record (mem_of_find?_eq_some hfind) hhash
    rw [hrevoked, Bool.true_or, if_pos rfl]

/-! ## The invariant -/

/-- The owners in the records and in the issues under way. -/
def owned (coding : Coding) (p : Process) : List Owner :=
  claimed coding p.records ++ promised coding p.issuing

/-- What holds of a process. -/
structure Sound (coding : Coding) (known stopped : List Bytes32) (p : Process) : Prop where
  agreed : Agreed known (held p.store) (owned coding p)
  stopped : ∀ hash ∈ stopped, Muted coding (fun _ => False) hash p
  revoking : ∀ revocation ∈ p.revoking, ∀ hash ∈ revocation.stopped,
    hash ∈ known ∧ Muted coding (· = revocation.principal_id) hash p

/-- What holds in every state of an orderly run. What was issued and not revoked is in the file and
in the records, until it expires. -/
structure Inv (coding : Coding) (s : State) : Prop where
  file_nodup : (hashes coding (loaded coding s.file)).Nodup
  file_known : ∀ hash ∈ hashes coding (loaded coding s.file), hash ∈ s.known
  stopped_known : ∀ hash ∈ s.stopped, hash ∈ s.known
  stopped_file : ∀ hash ∈ s.stopped, hash ∉ hashes coding (loaded coding s.file)
  process : ∀ p, s.process = some p → Sound coding s.known s.stopped p
  kept : ∀ issue ∈ s.standing, s.latest < issue.expires_at →
    persisted coding issue ∈ loaded coding s.file ∧
      ∀ p, s.process = some p → persisted coding issue ∈ p.records

/-- Where a process has come from another, without new owners: records and issues may go, an issue
may become a record, and bearers may be revoked. -/
structure Settles (coding : Coding) (p p' : Process) : Prop where
  held : held p'.store ⊆ held p.store := by exact Subset.refl _
  owned : List.Subperm (owned coding p') (owned coding p)
  revoked : ∀ hash, (∀ live ∈ p.store.records, live.token_hash = hash → live.revoked = true) →
    ∀ live ∈ p'.store.records, live.token_hash = hash → live.revoked = true := by exact fun _ h => h
  promised : promised coding p'.issuing ⊆ promised coding p.issuing

variable {p' : Process}

theorem Muted.settles
    (h : Muted coding mine hash p) (hsettles : Settles coding p p') : Muted coding mine hash p' where
  store := hsettles.revoked hash h.store
  promised owner howner := h.promised owner (hsettles.promised howner)
  claimed owner howner heq := by
    rcases mem_append.mp (hsettles.owned.subset (mem_append_left _ howner)) with
      hclaimed | hpromised
    · exact h.claimed owner hclaimed heq
    · exact absurd heq (h.promised owner hpromised)

variable {known : List Bytes32}

theorem Sound.settles (h : Sound coding known stopped p) (hsettles : Settles coding p p')
    (hrevoking : ∀ revocation ∈ p'.revoking, revocation ∈ p.revoking) :
    Sound coding known stopped p' where
  agreed := h.agreed.shrink hsettles.held hsettles.owned
  stopped hash hhash := (h.stopped hash hhash).settles hsettles
  revoking revocation hmem hash hhash :=
    (h.revoking revocation (hrevoking revocation hmem) hash hhash).imp_right fun hmuted =>
      hmuted.settles hsettles

variable {issuing : List Issue}

/-- A process that enrols a bearer with a new hash stays sound, also when the store or the list of
issues drops older ones. -/
theorem Sound.enroll (h : Sound coding known stopped p) (hstopped : ∀ hash ∈ stopped, hash ∈ known)
    (hnew : coding.hash issue.token ∉ known)
    (hstore : store.records.Sublist (p.store.records ++ [enrolled coding issue]))
    (hissuing : issuing.Sublist (p.issuing ++ [issue])) :
    Sound coding (coding.hash issue.token :: known) stopped { p with store, issuing } := by
  have hmuted {mine : PrincipalId → Prop} {hash : Bytes32} (hknown : hash ∈ known)
      (hmuted : Muted coding mine hash p) : Muted coding mine hash { p with store, issuing } := by
    have hne : coding.hash issue.token ≠ hash := fun heq => hnew (heq ▸ hknown)
    refine ⟨?_, ?_, hmuted.claimed⟩
    · intro live hlive heq
      rcases mem_append.mp (hstore.subset hlive) with hold | hadded
      · exact hmuted.store live hold heq
      · rw [mem_singleton.mp hadded] at heq
        exact absurd heq hne
    · intro owner howner
      obtain ⟨other, hother, rfl⟩ := mem_map.mp howner
      rcases mem_append.mp (hissuing.subset hother) with hold | hadded
      · exact hmuted.promised _ (mem_map_of_mem hold)
      · rw [mem_singleton.mp hadded]
        exact hne
  refine ⟨?_, ?_, ?_⟩
  · have hadd := h.agreed.add (coding.hash issue.token, issue.principal_id) hnew
    refine hadd.shrink (Sublist.subset ?_) (Sublist.subperm ?_)
    · exact (hstore.map _).trans (by rw [map_append]; rfl)
    · unfold owned
      rw [append_assoc]
      exact (map_append ▸ hissuing.map _).append_left _
  · exact fun hash hhash => hmuted (hstopped hash hhash) (h.stopped hash hhash)
  · intro revocation hmem hash hhash
    obtain ⟨hknown, hbefore⟩ := h.revoking revocation hmem hash hhash
    exact ⟨mem_cons_of_mem _ hknown, hmuted hknown hbefore⟩

theorem settles_revoking (p : Process) (revoking : List Revocation) :
    Settles coding p { p with revoking } where
  owned := Subperm.refl _
  promised := Subset.refl _

theorem settles_dropped (p : Process) (index : ℕ) :
    Settles coding p { p with issuing := p.issuing.eraseIdx index } where
  owned := (((eraseIdx_sublist _ _).map _).append_left _).subperm
  promised := ((eraseIdx_sublist _ _).map _).subset

/-- The second section of an issue turns it into a record, which brings no new owner. -/
theorem settles_persisted {index : ℕ} (hissue : p.issuing[index]? = some issue) (now : Instant) :
    Settles coding p
      { p with
        issuing := p.issuing.eraseIdx index
        records := compact (p.records ++ [persisted coding issue]) now } where
  owned := by
    obtain ⟨hindex, hget⟩ := List.getElem?_eq_some_iff.mp hissue
    have hperm : (promised coding (issue :: _)).Perm (promised coding p.issuing) :=
      (hget ▸ getElem_cons_eraseIdx_perm hindex).map _
    have hclaimed := @claimed_sublist coding _ _
      (compact_sublist (p.records ++ [persisted coding issue]) now)
    rw [claimed_append, claimed_persisted] at hclaimed
    refine (hclaimed.append_right _).subperm.trans ?_
    rw [append_assoc]
    exact (hperm.append_left _).subperm
  promised := ((eraseIdx_sublist _ _).map _).subset

/-- The records of a revoked principal go, and its issues are marked. -/
theorem settles_marked (p : Process) (principal : PrincipalId) (now : Instant)
    (revoking : List Revocation) :
    Settles coding p
      { p with
        issuing := spare principal p.issuing
        revoking
        records := compact (mark principal p.records) now } where
  owned := by
    have hclaimed := @claimed_sublist coding _ _
      (compact_sublist (mark principal p.records) now)
    rw [claimed_mark] at hclaimed
    unfold owned
    rw [promised_spare]
    exact (hclaimed.append_right _).subperm
  promised := by
    rw [promised_spare]
    exact Subset.refl _

/-- A revocation in the live store takes nothing but the right to authenticate. -/
theorem settles_revoked (p : Process) (principal : PrincipalId) (revoking : List Revocation) :
    Settles coding p
      { p with
        store := p.store.revoke principal
        issuing := spare principal p.issuing
        revoking } where
  held := by
    rw [held_revoke]
    exact Subset.refl _
  owned := by
    unfold owned
    rw [promised_spare]
  revoked hash h := by
    intro live hlive hhash
    obtain ⟨before, hbefore, rfl⟩ := mem_map.mp hlive
    split
    · rfl
    · rename_i hne
      rw [if_neg hne] at hhash
      exact h before hbefore hhash
  promised := by
    rw [promised_spare]
    exact Subset.refl _

/-- **The first section of a revocation** stops every bearer of the principal, if none of its issues
is under way. -/
theorem muted_revoked (h : Sound coding known stopped p)
    (hquiet : ∀ issue ∈ p.issuing, issue.principal_id ≠ principal) {record : AuthorityRecord}
    (hrecord : record ∈ p.store.records) (hprincipal : record.principal_id = principal)
    (revoking : List Revocation) :
    Muted coding (· = principal) record.token_hash
      { p with
        store := p.store.revoke principal
        issuing := spare principal p.issuing
        revoking } := by
  have hagrees : ∀ owner ∈ held p.store ++ owned coding p, owner.1 = record.token_hash →
      owner.2 = principal := by
    intro owner howner heq
    have hheld : (record.token_hash, record.principal_id) ∈ held p.store := mem_map_of_mem hrecord
    exact (h.agreed.agree owner howner _ (mem_append_left _ hheld) heq).trans hprincipal
  refine ⟨?_, ?_, ?_⟩
  · intro live hlive hhash
    obtain ⟨before, hbefore, rfl⟩ := mem_map.mp hlive
    split
    · rfl
    -- another record with this hash would be of the same principal
    rename_i hne
    rw [if_neg hne] at hhash
    have hagree := hagrees _ (mem_append_left _ (mem_map_of_mem hbefore)) hhash
    exact absurd hagree hne
  · rw [promised_spare]
    intro owner howner heq
    have hagree := hagrees owner (mem_append_right _ (mem_append_right _ howner)) heq
    obtain ⟨issue, hissue, rfl⟩ := mem_map.mp howner
    exact hquiet issue hissue hagree
  · exact fun owner howner heq =>
      hagrees owner (mem_append_right _ (mem_append_left _ howner)) heq

/-- **The second section** takes their records away. -/
theorem Muted.marked
    (h : Muted coding (· = principal) hash p) (now : Instant) (revoking : List Revocation) :
    Muted coding (fun _ => False) hash
      { p with
        issuing := spare principal p.issuing
        revoking
        records := compact (mark principal p.records) now } := by
  have hsettled := h.settles (settles_marked p principal now revoking)
  exact ⟨hsettled.store, hsettled.promised, fun owner howner heq =>
    ne_of_mem_mark howner (hsettled.claimed owner howner heq)⟩

/-! ## Boots -/

/-- The live record of the startup credential. -/
def StartupCredential.record (startup : StartupCredential) : AuthorityRecord where
  token_hash := startup.token_hash
  principal_id := startup.principal_id
  capabilities := startup.capabilities
  expires_at := startup.expires_at

variable {startup : StartupCredential} {max_principals : ℕ}

theorem enroll_eq (h : enroll startup max_principals now = some store) :
    store = ⟨[startup.record], max_principals + 1⟩ := by
  unfold enroll AuthorityStore.enroll_hash at h
  split at h
  · nomatch h
  rename_i heq
  split at heq
  · nomatch congrArg Prod.fst heq
  · exact (some.inj h).symm.trans (congrArg Prod.snd heq).symm

/-- The store of a boot. -/
def booted (coding : Coding) (startup : StartupCredential) (max_principals : ℕ)
    (enroll_at : Instant) (turns : Turns) : Option AuthorityStore := do
  let store ← enroll startup max_principals enroll_at
  restore coding store turns

section

variable {startup : StartupCredential} {max_principals : ℕ} {enroll_at compact_at : Instant}
  {restore_at : List Instant} {store : AuthorityStore} {records : List PersistedRecord}

/-- What a boot enrols is what the file has on record, in that order; it may leave some out. -/
theorem restore_held {store store' : AuthorityStore}
    (h : restore coding store turns = some store') :
    (held store').Sublist (held store ++ claimed coding (turns.map Prod.fst)) := by
  induction turns generalizing store with
  | nil =>
    cases h
    exact sublist_append_left _ _
  | cons turn turns ih =>
    obtain ⟨record, now⟩ := turn
    obtain ⟨hash, hhash, hturn⟩ := restore_cons h
    have henrolled : (held (store.enroll_hash (record.restored hash) now).2).Sublist
        (held store ++ [(hash, record.principal_id)]) :=
      ((enroll_hash_records store (record.restored hash) now).map _).trans (by rw [map_append]; rfl)
    have hcons : claimed coding (((record, now) :: turns).map Prod.fst) =
        (hash, record.principal_id) :: claimed coding (turns.map Prod.fst) := by
      simp only [claimed, map_cons, filterMap_cons, hhash, map_some]
    rw [hcons, append_cons]
    rcases hturn with ⟨handle, -, hrest⟩ | ⟨error, -, -, rfl⟩
    · exact (ih hrest).trans (henrolled.append_right _)
    · exact henrolled.trans (sublist_append_left _ _)

theorem booted_eq (h : booted coding startup max_principals enroll_at turns = some store) :
    restore coding ⟨[startup.record], max_principals + 1⟩ turns = some store := by
  obtain ⟨first, hfirst, hrestore⟩ := bind_eq_some_iff.mp h
  rw [enroll_eq hfirst] at hrestore
  exact hrestore

section

variable (h : booted coding startup max_principals enroll_at (records.zip restore_at) = some store)

include h

/-- The owners in the store of a boot. -/
theorem booted_held (hlength : restore_at.length = records.length) :
    (held store).Sublist
      ((startup.token_hash, startup.principal_id) :: claimed coding records) := by
  have hsublist := restore_held (booted_eq h)
  rw [map_fst_zip (Nat.le_of_eq hlength.symm)] at hsublist
  exact hsublist

/-- **When the records fit**, one that does not expire on the way is in the store of the boot. -/
theorem booted_mem (hlength : restore_at.length = records.length)
    (hfit : records.length ≤ max_principals) {record : PersistedRecord} (hrecord : record ∈ records)
    (hhash : coding.decode_hash record.token_hash_hex = some hash)
    (htimes : ∀ time ∈ restore_at, time < record.expires_at) :
    record.restored hash ∈ store.records := by
  rw [← map_fst_zip (Nat.le_of_eq hlength.symm)] at hrecord
  obtain ⟨turn, hturn, rfl⟩ := mem_map.mp hrecord
  refine (restore_all (booted_eq h) ?_).2 turn hturn hash hhash fun other hother =>
    htimes other.2 (of_mem_zip hother).2
  simp only [length_zip, length_singleton]
  omega

end

variable (hrecords : records.Sublist (loaded coding s.file))
  (hfile : startup.token_hash ∉ hashes coding (loaded coding s.file))

include hrecords hfile

theorem claimed_nodup (hnodup : (hashes coding (loaded coding s.file)).Nodup) :
    (((startup.token_hash, startup.principal_id) :: claimed coding records).map
      Prod.fst).Nodup := by
  rw [← claimed_fst] at hnodup hfile
  exact (nodup_cons.mpr ⟨hfile, hnodup⟩).sublist
    (((claimed_sublist hrecords).map Prod.fst).cons_cons _)

/-- **A boot** with a startup credential that is neither stopped nor in the file. -/
theorem sound_boot (h : Inv coding s) (hstopped : startup.token_hash ∉ s.stopped)
    (hlength : restore_at.length = records.length)
    (hstore : booted coding startup max_principals enroll_at (records.zip restore_at)
      = some store) :
    Sound coding (startup.token_hash :: s.known) s.stopped { store, records } := by
  have hheld := (booted_held hstore hlength).subset
  have hnodup := claimed_nodup hrecords hfile h.file_nodup
  have hloaded : ∀ owner ∈ claimed coding records,
      owner.1 ∈ hashes coding (loaded coding s.file) := by
    intro owner howner
    rw [← claimed_fst]
    exact mem_map_of_mem ((claimed_sublist hrecords).subset howner)
  have howners : ∀ owner ∈ held store ++ owned coding { store, records },
      owner ∈ (startup.token_hash, startup.principal_id) :: claimed coding records := by
    intro owner howner
    rw [owned, promised, map_nil, append_nil] at howner
    exact (mem_append.mp howner).elim (fun h => hheld h) (mem_cons_of_mem _)
  refine ⟨⟨?_, ?_, ?_⟩, ?_, nofun⟩
  · rw [owned, promised, map_nil, append_nil]
    exact (nodup_cons.mp hnodup).2
  · intro owner howner
    rcases mem_cons.mp (howners owner howner) with rfl | hclaimed
    · exact mem_cons_self
    · exact mem_cons_of_mem _ (h.file_known _ (hloaded owner hclaimed))
  · intro owner howner other hother heq
    rw [inj_on_of_nodup_map hnodup (howners owner howner) (howners other hother) heq]
  intro hash hhash
  have hclear : ∀ owner ∈ (startup.token_hash, startup.principal_id) :: claimed coding records,
      owner.1 ≠ hash := by
    rintro owner howner rfl
    rcases mem_cons.mp howner with rfl | hclaimed
    · exact hstopped hhash
    · exact h.stopped_file _ hhash (hloaded owner hclaimed)
  refine ⟨?_, nofun, ?_⟩
  · exact fun live hmem heq => absurd heq (hclear _ (hheld (mem_map_of_mem hmem)))
  · exact fun owner howner heq => hclear owner (mem_cons_of_mem _ howner) heq

end

/-! ## Steps -/

/-- The condition on a step: a principal is not revoked while one of its issues is between its two
sections, and the startup credential of a boot is neither a stopped bearer nor one in the file. -/
def Orderly (coding : Coding) (s : State) : Action → Prop
  | .revoke_live principal =>
    ∀ p, s.process = some p → ∀ issue ∈ p.issuing, issue.principal_id ≠ principal
  | .boot startup _ _ _ _ =>
    startup.token_hash ∉ s.stopped ∧ startup.token_hash ∉ hashes coding (loaded coding s.file)
  | _ => True

theorem mem_compact {record : PersistedRecord}
    (h : record ∈ records) (hrevoked : record.revoked = false) (hnow : now < record.expires_at) :
    record ∈ compact records now := by
  refine mem_filter.mpr ⟨h, ?_⟩
  simp [hrevoked, hnow]

variable {standing : List Issue}

/-- The records are replaced by ones that still hold what is standing, and may be written. -/
theorem Inv.persist (h : Inv coding s) (records : List PersistedRecord)
    (hrecords : p.records = compact records now)
    (hp : Sound coding s.known stopped p) (hknown : ∀ hash ∈ stopped, hash ∈ s.known)
    {writes : Bool} (hkept : writes = false → stopped = s.stopped)
    (hstanding : ∀ issue ∈ standing, max s.latest now < issue.expires_at →
      persisted coding issue ∈ records ∧ (issue ∈ s.standing ∨ writes = true)) :
    Inv coding
      { s with
        file := if writes then some (coding.to_vec_pretty p.records) else s.file
        process := some p
        stopped, standing
        latest := max s.latest now } := by
  have hsound : ∀ p', some p = some p' → Sound coding s.known stopped p' := by
    rintro p' ⟨⟩
    exact hp
  have hstands : ∀ issue ∈ standing, max s.latest now < issue.expires_at →
      persisted coding issue ∈ p.records := by
    intro issue hissue hlatest
    rw [hrecords]
    exact mem_compact (hstanding issue hissue hlatest).1 rfl
      (lt_of_le_of_lt (le_max_right s.latest now) hlatest)
  have hprocess : ∀ issue ∈ standing, max s.latest now < issue.expires_at →
      ∀ p', some p = some p' → persisted coding issue ∈ p'.records := by
    rintro issue hissue hlatest p' ⟨⟩
    exact hstands issue hissue hlatest
  cases writes with
  | false =>
    obtain rfl := hkept rfl
    refine ⟨h.file_nodup, h.file_known, hknown, h.stopped_file, hsound, ?_⟩
    intro issue hissue hlatest
    have hbefore := (hstanding issue hissue hlatest).2.resolve_right Bool.false_ne_true
    exact ⟨(h.kept issue hbefore (lt_of_le_of_lt (le_max_left s.latest now) hlatest)).1,
      hprocess issue hissue hlatest⟩
  | true =>
    have hfile : loaded coding (if true then some (coding.to_vec_pretty p.records) else s.file)
        = p.records := loaded_written p.records
    have hmem : ∀ hash ∈ hashes coding p.records, ∃ owner ∈ claimed coding p.records,
        owner.1 = hash := by
      intro hash hhash
      rw [← claimed_fst] at hhash
      exact mem_map.mp hhash
    refine ⟨?_, ?_, hknown, ?_, hsound, ?_⟩
    · rw [hfile, ← claimed_fst]
      exact hp.agreed.nodup.sublist ((sublist_append_left _ _).map _)
    · rw [hfile]
      intro hash hhash
      obtain ⟨owner, howner, rfl⟩ := hmem hash hhash
      exact hp.agreed.known owner (mem_append_right _ (mem_append_left _ howner))
    · rw [hfile]
      intro hash hhash hwritten
      obtain ⟨owner, howner, heq⟩ := hmem hash hwritten
      exact (hp.stopped hash hhash).claimed owner howner heq
    · intro issue hissue hlatest
      rw [hfile]
      exact ⟨hstands issue hissue hlatest, hprocess issue hissue hlatest⟩

/-- A step of the process that touches neither file nor records keeps the invariant, if nothing new
is standing. -/
theorem Inv.settle (h : Inv coding s) (hp : s.process = some p)
    (hp' : Sound coding s.known s.stopped p') (hrecords : p'.records = p.records)
    (hstanding : ∀ issue ∈ standing, issue ∈ s.standing) :
    Inv coding { s with process := some p', standing } := by
  refine { h with process := ?_, kept := ?_ }
  · rintro _ ⟨⟩
    exact hp'
  · intro issue hissue hlatest
    obtain ⟨hloaded, hkept⟩ := h.kept issue (hstanding issue hissue) hlatest
    refine ⟨hloaded, ?_⟩
    rintro _ ⟨⟩
    exact hrecords ▸ hkept p hp

/-- The first section of an issue keeps the invariant: its token is random, so no hash known so far
is its own. -/
theorem Inv.issue_enroll (h : Inv coding s) (hp : s.process = some p)
    (hnew : coding.hash issue.token ∉ s.known)
    (hstore : store.records.Sublist (p.store.records ++ [enrolled coding issue]))
    (hissuing : issuing.Sublist (p.issuing ++ [issue])) (now : Instant) :
    Inv coding
      { s with
        known := coding.hash issue.token :: s.known
        process := some { p with store, issuing }
        latest := max s.latest now } := by
  have hmore {hash : Bytes32} (hhash : hash ∈ s.known) :
      hash ∈ coding.hash issue.token :: s.known := mem_cons_of_mem _ hhash
  refine ⟨h.file_nodup, fun hash hhash => hmore (h.file_known hash hhash),
    fun hash hhash => hmore (h.stopped_known hash hhash), h.stopped_file, ?_, ?_⟩
  · rintro p' ⟨⟩
    exact (h.process p hp).enroll h.stopped_known hnew hstore hissuing
  · intro issue hissue hlatest
    obtain ⟨hloaded, hkept⟩ := h.kept issue hissue (lt_of_le_of_lt (le_max_left _ _) hlatest)
    refine ⟨hloaded, ?_⟩
    rintro p' ⟨⟩
    exact hkept p hp

/-- A fold of `max` bounds its start and every element. -/
theorem le_foldl_max (times : List Instant) (latest : Instant) :
    latest ≤ times.foldl max latest ∧ ∀ time ∈ times, time ≤ times.foldl max latest := by
  induction times generalizing latest with
  | nil => exact ⟨Nat.le_refl _, nofun⟩
  | cons time times ih =>
    obtain ⟨hlatest, htimes⟩ := ih (max latest time)
    refine ⟨(le_max_left _ _).trans hlatest, ?_⟩
    intro other hother
    rcases mem_cons.mp hother with rfl | hother
    · exact (le_max_right _ _).trans hlatest
    · exact htimes other hother

/-- **A boot keeps the invariant.** The store is filled from a file whose hashes are distinct and
known, and a startup credential that is none of them comes on top. -/
theorem Inv.boot (h : Inv coding s) {enroll_at compact_at : Instant} {restore_at : List Instant}
    (hok : startup.token_hash ∉ s.stopped ∧
      startup.token_hash ∉ hashes coding (loaded coding s.file))
    (hlength : restore_at.length = (compact (loaded coding s.file) compact_at).length)
    {file : Option Bytes} (hfile : loaded coding file = loaded coding s.file) :
    Inv coding
      { s with
        file
        process := (booted coding startup max_principals enroll_at
          ((compact (loaded coding s.file) compact_at).zip restore_at)).map fun store =>
            { store, records := compact (loaded coding s.file) compact_at }
        known := startup.token_hash :: s.known
        latest := (enroll_at :: compact_at :: restore_at).foldl max s.latest } := by
  refine ⟨?_, ?_, fun hash hhash => mem_cons_of_mem _ (h.stopped_known hash hhash), ?_, ?_, ?_⟩
  · rw [hfile]
    exact h.file_nodup
  · rw [hfile]
    exact fun hash hhash => mem_cons_of_mem _ (h.file_known hash hhash)
  · rw [hfile]
    exact h.stopped_file
  · intro p hp
    obtain ⟨store, hstore, rfl⟩ := map_eq_some_iff.mp hp
    exact sound_boot (compact_sublist _ _) hok.2 h hok.1 hlength hstore
  · intro issue hissue hlatest
    obtain ⟨hle, htimes⟩ := le_foldl_max (enroll_at :: compact_at :: restore_at) s.latest
    have hloaded := (h.kept issue hissue (lt_of_le_of_lt hle hlatest)).1
    refine ⟨hfile ▸ hloaded, ?_⟩
    intro p hp
    obtain ⟨store, -, rfl⟩ := map_eq_some_iff.mp hp
    refine mem_compact hloaded rfl (lt_of_le_of_lt (htimes compact_at ?_) hlatest)
    exact mem_cons_of_mem _ mem_cons_self

theorem loaded_kept (file : Option Bytes) :
    loaded coding (if (file.bind coding.from_slice).isSome then file else none)
      = loaded coding file := by
  split
  · rfl
  rename_i hnone
  rw [not_isSome_iff_eq_none] at hnone
  unfold loaded
  rw [hnone]
  rfl

/-- **Every orderly step** keeps stopped bearers stopped, and what was issued. -/
theorem Inv.step {action : Action} (h : Inv coding s) (hok : Orderly coding s action)
    (ht : step coding s action = some t) : Inv coding t := by
  have hfilter {principal : PrincipalId} : ∀ issue ∈ s.standing.filter
      (fun issue => issue.principal_id ≠ principal),
      issue ∈ s.standing ∧ issue.principal_id ≠ principal := by
    intro issue hissue
    obtain ⟨hmem, hne⟩ := mem_filter.mp hissue
    exact ⟨hmem, of_decide_eq_true hne⟩
  cases action with
  | issue_enroll token principal capabilities expires_at now =>
    obtain ⟨p, hp, ht⟩ := bind_eq_some_iff.mp ht
    simp only at ht
    split at ht
    · nomatch ht
    rename_i hnew
    have hsublist := enroll_hash_records p.store (enrolled coding
      { token, principal_id := principal, capabilities, expires_at }) now
    split at ht
    · rename_i heq
      rw [heq] at hsublist
      cases ht
      exact h.issue_enroll hp hnew hsublist (sublist_append_left _ _) _
    · rename_i heq
      rw [heq] at hsublist
      cases ht
      exact h.issue_enroll hp hnew hsublist (Sublist.refl _) _
  | issue_persist index now persist =>
    obtain ⟨p, hp, ht⟩ := bind_eq_some_iff.mp ht
    obtain ⟨issue, hissue, ht⟩ := bind_eq_some_iff.mp ht
    cases ht
    refine h.persist (p.records ++ [persisted coding issue]) rfl
      ((h.process p hp).settles (settles_persisted hissue now) fun _ => id)
      h.stopped_known (fun _ => rfl) ?_
    intro other hother hlatest
    have hold (hmem : other ∈ s.standing) : persisted coding other ∈ p.records :=
      (h.kept other hmem (lt_of_le_of_lt (le_max_left _ _) hlatest)).2 p hp
    split at hother
    · rename_i hstored
      rw [Bool.and_eq_true, decide_eq_true_eq] at hstored
      rcases mem_cons.mp hother with rfl | hother
      · refine ⟨mem_append_right _ mem_cons_self, .inr ?_⟩
        rw [hstored.1]
        rfl
      · exact ⟨mem_append_left _ (hold hother), .inl hother⟩
    · exact ⟨mem_append_left _ (hold hother), .inl hother⟩
  | issue_dropped index =>
    obtain ⟨p, hp, ht⟩ := bind_eq_some_iff.mp ht
    cases ht
    exact h.settle hp ((h.process p hp).settles (settles_dropped p index) fun _ => id) rfl
      fun _ => id
  | revoke_live principal =>
    obtain ⟨p, hp, ht⟩ := bind_eq_some_iff.mp ht
    cases ht
    have hp' := h.process p hp
    have hsettles := @settles_revoked coding p principal
    refine h.settle hp ⟨hp'.agreed.shrink (hsettles _).held (hsettles _).owned,
      fun hash hhash => (hp'.stopped hash hhash).settles (hsettles _), ?_⟩ rfl
      fun issue hissue => (hfilter issue hissue).1
    intro revocation hmem hash hhash
    rcases mem_append.mp hmem with hold | hnew
    · exact (hp'.revoking revocation hold hash hhash).imp_right fun hmuted =>
        hmuted.settles (hsettles _)
    rw [mem_singleton.mp hnew] at hhash ⊢
    obtain ⟨record, hrecord, rfl⟩ := mem_map.mp hhash
    obtain ⟨hrecord, hprincipal⟩ := mem_filter.mp hrecord
    exact ⟨hp'.agreed.known _ (mem_append_left _ (mem_map_of_mem hrecord)),
      muted_revoked hp' (hok p hp) hrecord (of_decide_eq_true hprincipal) _⟩
  | revoke_persist index now persist =>
    obtain ⟨p, hp, ht⟩ := bind_eq_some_iff.mp ht
    obtain ⟨revocation, hrevocation, ht⟩ := bind_eq_some_iff.mp ht
    cases ht
    have hp' := h.process p hp
    have hrevoking := hp'.revoking revocation (mem_of_getElem? hrevocation)
    have hsettled := hp'.settles
      (settles_marked p revocation.principal_id now (p.revoking.eraseIdx index))
      fun _ hmem => mem_of_mem_eraseIdx hmem
    have hstopped : ∀ hash ∈ (if persist = .stored then revocation.stopped ++ s.stopped
        else s.stopped), hash ∈ revocation.stopped ∨ hash ∈ s.stopped := by
      intro hash hhash
      split at hhash
      · exact mem_append.mp hhash
      · exact .inr hhash
    refine h.persist (mark revocation.principal_id p.records) rfl
      ⟨hsettled.agreed, ?_, hsettled.revoking⟩ ?_ ?_ ?_
    · intro hash hhash
      rcases hstopped hash hhash with hnew | hold
      · exact (hrevoking hash hnew).2.marked now _
      · exact hsettled.stopped hash hold
    · intro hash hhash
      rcases hstopped hash hhash with hnew | hold
      · exact (hrevoking hash hnew).1
      · exact h.stopped_known hash hold
    · intro hfailed
      have hne : persist ≠ .stored := by
        rintro rfl
        nomatch hfailed
      exact if_neg hne
    · intro issue hissue hlatest
      obtain ⟨hmem, hne⟩ := hfilter issue hissue
      have hrecord := (h.kept issue hmem (lt_of_le_of_lt (le_max_left _ _) hlatest)).2 p hp
      exact ⟨mem_map.mpr ⟨_, hrecord, if_neg hne⟩, .inl hmem⟩
  | revoke_dropped index =>
    obtain ⟨p, hp, ht⟩ := bind_eq_some_iff.mp ht
    cases ht
    exact h.settle hp ((h.process p hp).settles (settles_revoking p _) fun _ hmem =>
      mem_of_mem_eraseIdx hmem) rfl fun _ => id
  | stop =>
    cases ht
    exact { h with
      process := nofun
      kept := fun issue hissue hlatest => ⟨(h.kept issue hissue hlatest).1, nofun⟩ }
  | boot startup max_principals enroll_at compact_at restore_at =>
    simp only [Authority.step] at ht
    split at ht
    · nomatch ht
    · rename_i hlength
      cases ht
      exact h.boot hok (not_not.mp hlength) (loaded_kept s.file)

theorem Initial.inv (h : Initial coding s) : Inv coding s := by
  obtain ⟨file, hnodup, rfl⟩ := h
  exact ⟨hnodup, fun _ => id, nofun, nofun, nofun, nofun⟩

/-! ## After a restart -/

/-- A record that is neither revoked nor expired authenticates, as no other has its hash. -/
theorem authenticate_of_mem (hunique : Unique AuthorityRecord.token_hash store.records)
    {record : AuthorityRecord} (hrecord : record ∈ store.records)
    (hrevoked : record.revoked = false) (hnow : now < record.expires_at) :
    store.authenticate record.token_hash now = .ok (capability_handle record) := by
  have hfind : store.records.find? (fun other => other.token_hash = record.token_hash)
      = some record := hunique.get_of_mem hrecord rfl
  unfold AuthorityStore.authenticate
  rw [hfind]
  simp only
  rw [hrevoked, Bool.false_or, if_neg]
  simpa using hnow

/-- **Bearers after a restart.** In every run of issues and revocations whose steps are orderly, a
bearer that a completed revocation has stopped does not authenticate. And after a boot whose records
fit, every bearer that was issued, and whose principal was not revoked since, authenticates until it
expires. -/
theorem bearers_after_restart {s : State}
    (h : Reachable (Initial coding) (step coding) (Orderly coding) s) :
    (∀ p, s.process = some p → ∀ bearer, coding.sha256 bearer ∈ s.stopped → ∀ now,
      coding.authenticate p.store bearer now = .error authentication_error) ∧
    ∀ startup max_principals enroll_at compact_at restore_at t p,
      Orderly coding s (.boot startup max_principals enroll_at compact_at restore_at) →
      step coding s (.boot startup max_principals enroll_at compact_at restore_at) = some t →
      t.process = some p → p.records.length ≤ max_principals →
      ∀ issue ∈ t.standing, t.latest < issue.expires_at → ∀ now < issue.expires_at,
        coding.authenticate p.store (coding.encode issue.token) now
          = .ok ⟨issue.principal_id, issue.capabilities, issue.expires_at⟩ := by
  have hinv : Inv coding s :=
    Reachable.invariant (I := Inv coding) (fun _ => Initial.inv) (fun _ _ _ => Inv.step) h
  refine ⟨fun p hp bearer hstopped => ((hinv.process p hp).stopped _ hstopped).authenticate, ?_⟩
  intro startup max_principals enroll_at compact_at restore_at t p hok ht hp hfit issue hissue
    hlatest now hnow
  have hrecord := ((hinv.step hok ht).kept issue hissue hlatest).2 p hp
  simp only [step] at ht
  split at ht
  · nomatch ht
  rename_i hlength
  rw [not_not] at hlength
  rw [← some.inj ht] at hp hlatest
  obtain ⟨store, hstore, rfl⟩ := map_eq_some_iff.mp hp
  have hbooted : booted coding startup max_principals enroll_at
    ((compact (loaded coding s.file) compact_at).zip restore_at) = some store := hstore
  have hunique : Unique AuthorityRecord.token_hash store.records := by
    have hnodup := (claimed_nodup (compact_sublist _ _) hok.2 hinv.file_nodup).sublist
      ((booted_held hbooted hlength).map Prod.fst)
    rw [held_fst] at hnodup
    exact hnodup
  have htimes : ∀ time ∈ restore_at, time < issue.expires_at := by
    intro time htime
    have hmem : time ∈ enroll_at :: compact_at :: restore_at :=
      mem_cons_of_mem _ (mem_cons_of_mem _ htime)
    exact lt_of_le_of_lt ((le_foldl_max _ s.latest).2 time hmem) hlatest
  have hlive := booted_mem hbooted hlength hfit hrecord (decode_persisted issue) htimes
  unfold Coding.authenticate
  rw [coding.valid_encode, Bool.not_true, if_neg Bool.false_ne_true]
  exact authenticate_of_mem hunique hlive rfl hnow

end

/-! ### A bearer that comes back -/

theorem toNat_byte_char (b : UInt8) : UInt8.ofNat (Char.ofNat b.toNat).toNat = b := by
  have hvalid : b.toNat.isValidChar := .inl (by have := b.toNat_lt; omega)
  rw [Char.ofNat, dif_pos hvalid]
  exact UInt8.ofNat_toNat

/-- Persisted records in the format of `Wire`. -/
def record_wire : Wire PersistedRecord :=
  (Wire.text.both (Wire.nat.both (Wire.nat.list.both (Wire.nat.both
    (Wire.among [false, true] Wire.mem_bools))))).embed
    (fun record => (record.token_hash_hex, record.principal_id, record.capabilities,
      record.expires_at, record.revoked))
    (fun parts => some ⟨parts.1, parts.2.1, parts.2.2.1, parts.2.2.2.1, parts.2.2.2.2⟩) fun _ => rfl

/-- The same byte, 32 times. -/
def filled (b : UInt8) : Bytes32 := ⟨List.replicate 32 b, List.length_replicate⟩

/-- Two bearers that are told apart. -/
def first_bearer : String := "aaaaaaaaaaaaaaaaaaaaaaaaaaaaaaaa"

def second_bearer : String := "bbbbbbbbbbbbbbbbbbbbbbbbbbbbbbbb"

/-- Libraries that know two bearers. -/
def plain_coding : Coding where
  encode token := if token = filled 0 then first_bearer else second_bearer
  sha256 bearer := if bearer = first_bearer then filled 1 else filled 2
  hex_encode bytes := String.ofList (bytes.map fun b => Char.ofNat b.toNat)
  hex_decode hex := some (hex.toList.map fun c => UInt8.ofNat c.toNat)
  to_vec_pretty := record_wire.list.put
  from_slice bytes := (record_wire.list.get bytes).map Prod.fst
  valid_encode token := by
    split
    · decide +kernel
    · decide +kernel
  hex_decode_encode bytes := by
    rw [String.toList_ofList, List.map_map]
    exact congrArg some (List.map_id'' toNat_byte_char bytes)
  from_slice_to_vec records := by
    have hget := record_wire.list.get_put records []
    rw [List.append_nil] at hget
    rw [hget]
    rfl

/-- The credential that every boot is given. -/
def startup : StartupCredential := ⟨filled 3, 0, [0], 1000⟩

instance (s : State) (action : Action) : Decidable (Orderly plain_coding s action) := by
  cases action with
  | revoke_live => exact inferInstanceAs (Decidable (∀ p ∈ s.process, _))
  | boot => exact inferInstanceAs (Decidable (_ ∧ _))
  | _ => exact isTrue trivial

/-- The state that actions lead to from an empty directory. -/
def after (ok : State → Action → Prop) [∀ s a, Decidable (ok s a)] (actions : List Action) : State :=
  (run (orderly (step plain_coding) ok) {} actions).getD {}

theorem reachable_after {ok : State → Action → Prop} [∀ s a, Decidable (ok s a)]
    {actions : List Action}
    (hrun : (run (orderly (step plain_coding) ok) {} actions).isSome = true) :
    Reachable (Initial plain_coding) (step plain_coding) ok (after ok actions) :=
  reachable_of_isSome_run (.start ⟨none, nodup_nil, rfl⟩) hrun

/-- A principal is revoked while a bearer is issued to it. -/
def raced : List Action :=
  [.boot startup 16 0 0 [], .issue_enroll (filled 0) 7 [1] 100 1, .revoke_live 7,
    .revoke_persist 0 2 .stored, .issue_persist 0 3 .stored]

/-- The process is started again. -/
def restarted : State := after (fun _ _ => True) (raced ++ [.boot startup 16 4 4 [4]])

/-- **A revoked bearer comes back.** It is enrolled, its principal is revoked and the revocation
completes, and only then is it persisted. It does not authenticate any more, until the process is
started again. -/
theorem revoked_bearer_restored :
    (∃ p ∈ (after (fun _ _ => True) raced).process,
      (plain_coding.authenticate p.store first_bearer 3).toOption = none) ∧
    Reachable (Initial plain_coding) (step plain_coding) (fun _ _ => True) restarted ∧
    plain_coding.sha256 first_bearer ∈ restarted.stopped ∧
    ∃ p ∈ restarted.process,
      (plain_coding.authenticate p.store first_bearer 5).toOption = some ⟨7, [1], 100⟩ := by
  refine ⟨?_, reachable_after ?_, ?_, ?_⟩
  · decide +kernel
  · decide +kernel
  · decide +kernel
  · decide +kernel

/-- Two bearers are issued, and the principal of one is revoked. -/
def revoked : State := after (Orderly plain_coding)
  [.boot startup 16 0 0 [], .issue_enroll (filled 0) 7 [1] 100 1, .issue_persist 0 2 .stored,
    .issue_enroll (filled 9) 8 [1] 100 3, .issue_persist 0 4 .stored, .revoke_live 8,
    .revoke_persist 0 5 .stored]

/-- The bearer that is left. -/
def left_issue : Issue := ⟨filled 0, 7, [1], 100, true⟩

/-- After a restart the one does not authenticate, and the other does. -/
theorem spared_bearer_restored :
    (∀ p, revoked.process = some p →
      plain_coding.authenticate p.store second_bearer 6 = .error authentication_error) ∧
    ∃ t p, step plain_coding revoked (.boot startup 16 6 6 [6]) = some t ∧ t.process = some p ∧
      plain_coding.authenticate p.store first_bearer 7 = .ok ⟨7, [1], 100⟩ := by
  have hreachable : Reachable (Initial plain_coding) (step plain_coding) (Orderly plain_coding)
      revoked := reachable_after (by decide +kernel)
  obtain ⟨hstopped, hstanding⟩ := bearers_after_restart hreachable
  have hboot : ∃ t ∈ step plain_coding revoked (.boot startup 16 6 6 [6]), ∃ p ∈ t.process,
      p.records.length ≤ 16 ∧ left_issue ∈ t.standing ∧ t.latest < left_issue.expires_at := by
    decide +kernel
  obtain ⟨t, ht, p, hp, hfit, hissue, hlatest⟩ := hboot
  refine ⟨?_, t, p, ht, hp, ?_⟩
  · intro p hp
    exact hstopped p hp second_bearer (by decide +kernel) 6
  · have hok : Orderly plain_coding revoked (.boot startup 16 6 6 [6]) := by decide +kernel
    exact hstanding startup 16 6 6 [6] t p hok ht hp hfit left_issue hissue hlatest 7 (by decide)

end BobbyBrowser.Authority
