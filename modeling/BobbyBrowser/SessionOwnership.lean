/-
Who owns a session (`crates/interface-core/src/session_ownership.rs`).

A principal reserves a place before its session is created, and holds the reservation as a value,
which `finalize` consumes unless it is dropped. Sessions are recorded without a reservation too.
Places that are reserved count as used.
-/
import BobbyBrowser.Transition
import Mathlib.Algebra.Order.BigOperators.Ring.Finset
import Mathlib.Data.List.AList

set_option autoImplicit false

namespace BobbyBrowser.SessionOwnership

open Transition List

abbrev SessionId := ℕ

abbrev PrincipalId := ℕ

/-- A `HashMap` whose values are principals. -/
abbrev Principals := AList fun _ : ℕ => PrincipalId

/-- `SessionOwnershipRecordError`. Nothing panics under the lock, so that it is never poisoned. -/
inductive SessionOwnershipRecordError
  | capacity_exhausted
  | ownership_conflict
  | finalize_failed

structure RegistryState where
  owners : Principals := ∅
  reservations : Principals := ∅
  next_reservation_id : ℕ := 1
  fail_next_finalize : Bool := false

namespace RegistryState

variable (state : RegistryState) (capacity : ℕ)

/-- Owned sessions and open reservations. -/
def used : ℕ := state.owners.keys.length + state.reservations.keys.length

def reserve (principal : PrincipalId) : Except SessionOwnershipRecordError ℕ × RegistryState :=
  if capacity ≤ state.used then (.error .capacity_exhausted, state)
  else if state.next_reservation_id + 1 < 2 ^ 64 then
    (.ok state.next_reservation_id, { state with
      next_reservation_id := state.next_reservation_id + 1
      reservations := state.reservations.insert state.next_reservation_id principal })
  else (.error .capacity_exhausted, state)

def record_authenticated_session (principal : PrincipalId) (session : SessionId) :
    Except SessionOwnershipRecordError Unit × RegistryState :=
  match state.owners.lookup session with
  | some owner => (if owner = principal then .ok () else .error .ownership_conflict, state)
  | none =>
    if capacity ≤ state.used then (.error .capacity_exhausted, state)
    else (.ok (), { state with owners := state.owners.insert session principal })

def release_authenticated_session (principal : PrincipalId) (session : SessionId) : RegistryState :=
  if state.owners.lookup session = some principal then
    { state with owners := state.owners.erase session }
  else state

/-- `finalize`, and whether the reservation is active after it. -/
def finalize (reservation_id : ℕ) (session : SessionId) :
    Except SessionOwnershipRecordError Unit × RegistryState × Bool :=
  match state.reservations.lookup reservation_id with
  | none => (.error .finalize_failed, state, true)
  | some principal =>
    let state := { state with reservations := state.reservations.erase reservation_id }
    if state.fail_next_finalize then
      (.error .finalize_failed, { state with fail_next_finalize := false }, false)
    else
      match state.owners.lookup session with
      | some owner =>
        (if owner = principal then .ok () else .error .ownership_conflict, state, false)
      | none => (.ok (), { state with owners := state.owners.insert session principal }, false)

/-- `Drop` of a reservation. -/
def drop (reservation_id : ℕ) (active : Bool) : RegistryState :=
  if active then { state with reservations := state.reservations.erase reservation_id } else state

end RegistryState

/-- The registry, and the reservations that somebody holds, that were finalized, and that were
dropped. -/
structure World where
  state : RegistryState := {}
  held : List ℕ := []
  finalized : List ℕ := []
  dropped : List ℕ := []

inductive Action
  | reserve (principal : PrincipalId)
  | finalize (reservation_id : ℕ) (session : SessionId)
  | drop (reservation_id : ℕ)
  | record (principal : PrincipalId) (session : SessionId)
  | release (principal : PrincipalId) (session : SessionId)
  | inject_finalize_failure

/-- Calls of any principals in any order. A reservation is finalized or dropped by who holds it, and
`finalize` drops it when it returns. -/
def step (capacity : ℕ) (w : World) : Action → Option World
  | .reserve principal =>
    match w.state.reserve capacity principal with
    | (.ok reservation_id, state) => some { w with state, held := reservation_id :: w.held }
    | (.error _, state) => some { w with state }
  | .finalize reservation_id session =>
    if reservation_id ∈ w.held then
      let (_, state, active) := w.state.finalize reservation_id session
      some { w with
        state := state.drop reservation_id active
        held := w.held.erase reservation_id
        finalized := reservation_id :: w.finalized }
    else none
  | .drop reservation_id =>
    if reservation_id ∈ w.held then
      some { w with
        state := w.state.drop reservation_id true
        held := w.held.erase reservation_id
        dropped := reservation_id :: w.dropped }
    else none
  | .record principal session =>
    some { w with state := (w.state.record_authenticated_session capacity principal session).2 }
  | .release principal session =>
    some { w with state := w.state.release_authenticated_session principal session }
  | .inject_finalize_failure => some { w with state := { w.state with fail_next_finalize := true } }

/-! ## What the calls do -/

/-- Owners stay, or a session without one gets one. -/
def Grows (owners owners' : Principals) : Prop :=
  owners' = owners ∨ ∃ session principal, session ∉ owners ∧ owners' = owners.insert session principal

variable {state : RegistryState} {capacity reservation_id : ℕ} {session : SessionId}
  {principal : PrincipalId} {owners owners' : Principals} {w t : World} {action : Action}

theorem Grows.length_le (h : Grows owners owners') :
    owners'.keys.length ≤ owners.keys.length + 1 := by
  rcases h with rfl | ⟨session, principal, hnew, rfl⟩
  · exact Nat.le_succ _
  · rw [AList.keys_insert, erase_of_not_mem hnew, length_cons]

theorem Grows.lookup (h : Grows owners owners') (howner : owners.lookup session = some principal) :
    owners'.lookup session = some principal := by
  rcases h with rfl | ⟨new, _, hnew, rfl⟩
  · exact howner
  · rw [AList.lookup_insert_ne]
    · exact howner
    · rintro rfl
      rw [AList.lookup_eq_none.mpr hnew] at howner
      nomatch howner

/-- A reservation is refused, or takes one place and a new id. -/
theorem reserve_spec (state : RegistryState) (capacity : ℕ) (principal : PrincipalId) :
    (∃ error, state.reserve capacity principal = (.error error, state)) ∨
      state.used < capacity ∧ state.reserve capacity principal = (.ok state.next_reservation_id,
        { state with
          next_reservation_id := state.next_reservation_id + 1
          reservations := state.reservations.insert state.next_reservation_id principal }) := by
  unfold RegistryState.reserve
  split
  · exact .inl ⟨_, rfl⟩
  rename_i hroom
  split
  · exact .inr ⟨Nat.not_le.mp hroom, rfl⟩
  · exact .inl ⟨_, rfl⟩

/-- A session is recorded for its owner where there is room, and an owner never changes. -/
theorem record_spec (state : RegistryState) (capacity : ℕ) (principal : PrincipalId)
    (session : SessionId) : ∃ owners, Grows state.owners owners ∧
      (state.used < capacity ∨ owners = state.owners) ∧
      (state.record_authenticated_session capacity principal session).2 = { state with owners } := by
  unfold RegistryState.record_authenticated_session
  split
  · exact ⟨_, .inl rfl, .inr rfl, rfl⟩
  rename_i hnone
  split
  · exact ⟨_, .inl rfl, .inr rfl, rfl⟩
  · rename_i hroom
    exact ⟨_, .inr ⟨_, _, AList.lookup_eq_none.mp hnone, rfl⟩, .inl (Nat.not_le.mp hroom), rfl⟩

/-- A reservation that is finalized is gone, and may have become a session. -/
theorem finalize_spec (state : RegistryState) (session : SessionId)
    (h : reservation_id ∈ state.reservations) :
    ∃ owners fail_next_finalize result, Grows state.owners owners ∧
      state.finalize reservation_id session = (result, { state with
        reservations := state.reservations.erase reservation_id, owners, fail_next_finalize }, false) := by
  obtain ⟨principal, hprincipal⟩ := Option.isSome_iff_exists.mp (AList.lookup_isSome.mpr h)
  unfold RegistryState.finalize
  rw [hprincipal]
  simp only
  split
  · exact ⟨_, _, _, .inl rfl, rfl⟩
  split
  · exact ⟨_, _, _, .inl rfl, rfl⟩
  · rename_i hnone
    exact ⟨_, _, _, .inr ⟨_, _, AList.lookup_eq_none.mp hnone, rfl⟩, rfl⟩

/-! ## What holds in every run -/

/-- The reservations of the registry are those that somebody holds, every reservation that was
issued is held, finalized or dropped, and no more places are used than there are. -/
structure Inv (capacity : ℕ) (w : World) : Prop where
  used : w.state.used ≤ capacity
  held : w.state.reservations.keys = w.held
  issued : ∀ id, w.held.count id + w.finalized.count id + w.dropped.count id
    = if 1 ≤ id ∧ id < w.state.next_reservation_id then 1 else 0
  pos : 1 ≤ w.state.next_reservation_id

/-- A reservation is consumed, by one call. -/
theorem Inv.consume {finalized dropped : List ℕ} {fail_next_finalize : Bool} (h : Inv capacity w)
    (hheld : reservation_id ∈ w.held) (hgrows : Grows w.state.owners owners)
    (hconsumed : ∀ id, finalized.count id + dropped.count id
      = w.finalized.count id + w.dropped.count id + if reservation_id = id then 1 else 0) :
    Inv capacity ⟨⟨owners, w.state.reservations.erase reservation_id, w.state.next_reservation_id,
      fail_next_finalize⟩, w.held.erase reservation_id, finalized, dropped⟩ := by
  refine ⟨?_, ?_, fun id => ?_, h.pos⟩
  · have hused := h.used
    have hlength := hgrows.length_le
    have herase := length_erase_add_one hheld
    unfold RegistryState.used at hused ⊢
    rw [h.held] at hused
    rw [AList.keys_erase, h.held]
    simp only
    omega
  · rw [AList.keys_erase, h.held]
  · have hpos := count_pos_iff.mpr hheld
    rw [← h.issued id, count_erase, Nat.add_assoc, hconsumed]
    simp only [beq_iff_eq]
    split
    · rename_i hid
      rw [hid] at hpos
      omega
    · omega

/-- **One step**: the invariant is kept, and a session keeps its owner unless the owner releases it. -/
theorem Inv.step (h : Inv capacity w) (ht : step capacity w action = some t) :
    Inv capacity t ∧ ∀ session principal, w.state.owners.lookup session = some principal →
      t.state.owners.lookup session = some principal ∨ action = .release principal session := by
  cases action with
  | reserve principal =>
    rcases reserve_spec w.state capacity principal with ⟨error, hreserve⟩ | ⟨hroom, hreserve⟩
    · simp only [SessionOwnership.step, hreserve] at ht
      cases ht
      exact ⟨{ h with }, fun _ _ => .inl⟩
    simp only [SessionOwnership.step, hreserve] at ht
    cases ht
    have hpos := h.pos
    have hnew : w.state.next_reservation_id ∉ w.state.reservations.keys := by
      have hcount := h.issued w.state.next_reservation_id
      rw [if_neg (by omega)] at hcount
      rw [h.held, ← count_eq_zero]
      omega
    refine ⟨⟨?_, ?_, fun id => ?_, Nat.le_add_left 1 _⟩, fun _ _ => .inl⟩
    · unfold RegistryState.used at hroom ⊢
      rw [AList.keys_insert, erase_of_not_mem hnew, length_cons]
      exact hroom
    · rw [← h.held, AList.keys_insert, erase_of_not_mem hnew]
    · have hcount := h.issued id
      rw [count_cons]
      simp only [beq_iff_eq]
      split at hcount <;> split <;> split <;> omega
  | finalize reservation_id session =>
    have hheld : reservation_id ∈ w.state.reservations.keys := by
      rw [h.held]
      exact (of_guard ht).1
    obtain ⟨owners, fail_next_finalize, result, hgrows, hfinalize⟩ :=
      finalize_spec w.state session hheld
    simp only [SessionOwnership.step, hfinalize] at ht
    obtain ⟨hheld, rfl⟩ := of_guard ht
    refine ⟨h.consume hheld hgrows fun id => ?_, fun _ _ howner => .inl (hgrows.lookup howner)⟩
    rw [count_cons]
    simp only [beq_iff_eq]
    omega
  | drop reservation_id =>
    obtain ⟨hheld, rfl⟩ := of_guard ht
    refine ⟨h.consume hheld (.inl rfl) fun id => ?_, fun _ _ => .inl⟩
    rw [count_cons, Nat.add_assoc]
    simp only [beq_iff_eq]
  | record principal session =>
    cases ht
    obtain ⟨owners, hgrows, hroom, hrecord⟩ := record_spec w.state capacity principal session
    rw [hrecord]
    refine ⟨{ h with used := ?_ }, fun _ _ howner => .inl (hgrows.lookup howner)⟩
    rcases hroom with hroom | rfl
    · have hlength := hgrows.length_le
      unfold RegistryState.used at hroom ⊢
      simp only
      omega
    · exact h.used
  | release principal session =>
    cases ht
    unfold RegistryState.release_authenticated_session
    split
    · rename_i howned
      refine ⟨{ h with used := ?_ }, fun other owner howner => ?_⟩
      · refine le_trans (Nat.add_le_add_right ?_ _) h.used
        rw [AList.keys_erase]
        exact length_erase_le
      · by_cases hsame : other = session
        · right
          rw [hsame, howned] at howner
          rw [hsame, Option.some.inj howner]
        · rw [AList.lookup_erase_ne hsame]
          exact .inl howner
    · exact ⟨{ h with }, fun _ _ => .inl⟩
  | inject_finalize_failure =>
    cases ht
    exact ⟨{ h with }, fun _ _ => .inl⟩

/-- **A whole run**: the invariant is kept, and a session that loses its owner was released by it. -/
theorem Inv.run {actions : List Action} (h : Inv capacity w)
    (ht : run (SessionOwnership.step capacity) w actions = some t) :
    Inv capacity t ∧ ∀ session principal, w.state.owners.lookup session = some principal →
      t.state.owners.lookup session = some principal ∨ .release principal session ∈ actions := by
  induction actions generalizing w with
  | nil =>
    cases ht
    exact ⟨h, fun _ _ => .inl⟩
  | cons action actions ih =>
    obtain ⟨v, hv, ht⟩ := Option.bind_eq_some_iff.mp ht
    obtain ⟨hv, hstep⟩ := h.step hv
    obtain ⟨ht, hrun⟩ := ih hv ht
    refine ⟨ht, fun session principal howner => ?_⟩
    rcases hstep session principal howner with hkept | rfl
    · exact (hrun session principal hkept).imp_right (mem_cons_of_mem _)
    · exact .inr mem_cons_self

/-- **Places and owners.** After any calls, owned sessions and open reservations fit in the capacity,
the open reservations are those that somebody holds, every reservation that was issued is held,
finalized or dropped, and only one of these, once, and a session that loses its owner in what
follows is released by it. -/
theorem ownership_kept (capacity : ℕ) (actions : List Action) (w : World)
    (h : run (step capacity) {} actions = some w) :
    w.state.owners.keys.length + w.state.reservations.keys.length ≤ capacity ∧
    w.state.reservations.keys = w.held ∧
    (∀ id, 1 ≤ id → id < w.state.next_reservation_id →
      w.held.count id + w.finalized.count id + w.dropped.count id = 1) ∧
    ∀ later t session principal, Transition.run (step capacity) w later = some t →
      w.state.owners.lookup session = some principal →
        t.state.owners.lookup session ≠ some principal → .release principal session ∈ later := by
  have hstart : Inv capacity {} :=
    ⟨Nat.zero_le _, rfl, fun id => (if_neg fun h => Nat.not_lt.mpr h.1 h.2).symm, Nat.le_refl _⟩
  obtain ⟨hw, -⟩ := hstart.run h
  refine ⟨hw.used, hw.held, fun id hpos hlt => ?_, fun later t session principal ht howner hlost => ?_⟩
  · rw [hw.issued, if_pos ⟨hpos, hlt⟩]
  · exact ((hw.run ht).2 session principal howner).resolve_left hlost

/-- Principal 1 drops a reservation and finalizes another for session 5, which it then releases. -/
theorem session_changes_hands :
    ∃ w ∈ run (step 1) {} [.reserve 1, .drop 1, .reserve 1, .finalize 2 5],
      w.held.count 2 + w.finalized.count 2 + w.dropped.count 2 = 1 ∧
        ∃ t ∈ run (step 1) w [.release 1 5, .record 2 5], t.state.owners.lookup 5 = some 2 ∧
          Action.release 1 5 ∈ [Action.release 1 5, .record 2 5] := by
  obtain ⟨w, hw, hid, howner, t, ht, hnew⟩ :
      ∃ w ∈ run (step 1) {} [.reserve 1, .drop 1, .reserve 1, .finalize 2 5],
        2 < w.state.next_reservation_id ∧ w.state.owners.lookup 5 = some 1 ∧
          ∃ t ∈ run (step 1) w [.release 1 5, .record 2 5], t.state.owners.lookup 5 = some 2 := by
    decide +kernel
  obtain ⟨-, -, hissued, hreleased⟩ := ownership_kept 1 _ w hw
  refine ⟨w, hw, hissued 2 (by decide) hid, t, ht, hnew, hreleased _ t 5 1 ht howner ?_⟩
  rw [hnew]
  nofun

end BobbyBrowser.SessionOwnership
