/-
The event store (`crates/interface-core/src/events.rs`).

Producers append events, each for one principal or for none, and the store keeps
the last ones under contiguous cursors. A consumer reads what follows the last
event it received, and a read that finds nothing waits to be notified of an
append. An append notifies after it has left the critical section, so anything may
happen in between.

The log of all appends is kept beside the store, and every statement is about it.
-/
import BobbyBrowser.Transition
import Mathlib.Algebra.Order.BigOperators.Ring.Finset

set_option autoImplicit false

namespace BobbyBrowser.Events

open Transition List Option

/-! ## The store -/

/-- An event. `B` is its kind and payload. -/
structure Event (B : Type) where
  cursor : ℕ
  body : B
  deriving DecidableEq

structure StoredEvent (P B : Type) where
  audience : Option P
  event : Event B
  deriving DecidableEq

structure EventState (P B : Type) where
  next_cursor : ℕ := 1
  retained : List (StoredEvent P B) := []

structure EventBatch (B : Type) where
  events : List (Event B)
  latest_available : ℕ

inductive EventGapReason
  | history_lost
  | invalid_limit
  | invalid_cursor
  deriving DecidableEq

structure EventGap where
  reason : EventGapReason
  earliest_available : ℕ
  deriving DecidableEq

inductive ReadDecision (B : Type)
  | return (result : Except EventGap (EventBatch B))
  | wait

def saturating_add (a b : ℕ) : ℕ := min (a + b) (2 ^ 64 - 1)

variable {P B : Type} [DecidableEq P] (capacity : ℕ) (sanitize : B → B) (state : EventState P B)

/-- The critical section of `append_inner`, with the event it stores. It panics when there is no
next cursor. -/
def append_inner (audience : Option P) (body : B) : Option (StoredEvent P B × EventState P B) :=
  if state.next_cursor + 1 < 2 ^ 64 then
    let stored := ⟨audience, state.next_cursor, sanitize body⟩
    let retained := if state.retained.length = capacity then state.retained.tail else state.retained
    some (stored, ⟨state.next_cursor + 1, retained ++ [stored]⟩)
  else none

/-- The event is for the principal. Without one, every event is. -/
def addressed (principal : Option P) (stored : StoredEvent P B) : Bool :=
  principal.all fun principal => stored.audience = some principal

def EventState.latest : ℕ := state.retained.getLast?.elim 0 fun stored => stored.event.cursor

def EventState.earliest : ℕ := state.retained.head?.elim 0 fun stored => stored.event.cursor

def read_decision (principal : Option P) (cursor limit : ℕ) : ReadDecision B :=
  if state.latest < cursor then .return (.error ⟨.invalid_cursor, state.earliest⟩)
  else if saturating_add cursor 1 < state.earliest then
    .return (.error ⟨.history_lost, state.earliest⟩)
  else
    match (((state.retained.drop
        (min (saturating_add cursor 1 - state.earliest) state.retained.length)).filter
          (addressed principal)).take limit).map StoredEvent.event with
    | [] => .wait
    | event :: events => .return (.ok ⟨event :: events, state.latest⟩)

/-! ## Producers and consumers -/

/-- A call of `read_after_for` (or, without a principal, `read_after`) past the test of its limit:
how many notifications there had been when it last registered for one, and whether it has looked
at the store since and waits. -/
structure Reading where
  limit : ℕ
  registered : ℕ
  parked : Bool

/-- The store with any number of producers and one consumer: reads leave the store as it is, so
others make no difference. `notified` counts the calls of `notify_waiters`, and `unnotified` the
appends that have yet to make theirs. `log` is every event that was appended. The consumer began
after the cursor `start`, and `cursor` is that of the last event it received. -/
structure State (P B : Type) where
  store : EventState P B := {}
  notified : ℕ := 0
  unnotified : ℕ := 0
  log : List (StoredEvent P B) := []
  principal : Option P := none
  start : ℕ := 0
  cursor : ℕ := 0
  received : List (Event B) := []
  gaps : List EventGap := []
  reading : Option Reading := none

inductive Action (P B : Type)
  | append (audience : Option P) (body : B)
  | notify
  /-- Another consumer takes over, after a cursor the store has given out or after zero. -/
  | begin (principal : Option P) (cursor : ℕ)
  | read (limit : ℕ)
  | inspect
  | wake
  /-- The consumer drops its call. -/
  | cancel

/-- The cursor of the last event that was received, these included. -/
def State.after (s : State P B) (events : List (Event B)) : ℕ :=
  events.getLast?.elim s.cursor Event.cursor

/-- What a decision makes of the call. -/
def State.answer (s : State P B) (r : Reading) : ReadDecision B → State P B
  | .wait => { s with reading := some { r with parked := true } }
  | .return (.error gap) => { s with gaps := s.gaps ++ [gap], reading := none }
  | .return (.ok batch) => { s with
      cursor := s.after batch.events
      received := s.received ++ batch.events
      reading := none }

def step (s : State P B) : Action P B → Option (State P B)
  | .append audience body =>
    (append_inner capacity sanitize s.store audience body).map fun (stored, store) =>
      { s with store := store, unnotified := s.unnotified + 1, log := s.log ++ [stored] }
  | .notify =>
    if s.unnotified = 0 then none
    else some { s with notified := s.notified + 1, unnotified := s.unnotified - 1 }
  | .begin principal cursor =>
    if cursor < s.store.next_cursor then
      some { s with
        principal := principal, start := cursor, cursor := cursor
        received := [], gaps := [], reading := none }
    else none
  | .read limit =>
    if s.reading.isSome then none
    else if limit = 0 then some { s with gaps := s.gaps ++ [⟨.invalid_limit, 0⟩] }
    else some { s with reading := some ⟨min limit capacity, s.notified, false⟩ }
  | .inspect =>
    match s.reading with
    | some ⟨limit, registered, false⟩ =>
      some (s.answer ⟨limit, registered, false⟩ (read_decision s.store s.principal s.cursor limit))
    | _ => none
  | .wake =>
    match s.reading with
    | some ⟨limit, registered, true⟩ =>
      -- the loop registers anew before it looks again
      if registered < s.notified then some { s with reading := some ⟨limit, s.notified, false⟩ }
      else none
    | _ => none
  | .cancel => some { s with reading := none }

/-! ## What the log says -/

/-- The events for the principal whose cursors are above the first one and not above the second. -/
def delivered (log : List (StoredEvent P B)) (principal : Option P) (above upto : ℕ) :
    List (Event B) :=
  (((log.take upto).drop above).filter (addressed principal)).map StoredEvent.event

/-- The events for the consumer that it has yet to receive. -/
def due (s : State P B) : List (Event B) :=
  ((s.log.drop s.cursor).filter (addressed s.principal)).map StoredEvent.event

/-- The log has the cursors 1, 2, 3 and so on. -/
def Numbered (log : List (StoredEvent P B)) : Prop :=
  log.map (fun stored => stored.event.cursor) = List.range' 1 log.length

variable {stored : StoredEvent P B}

section

variable {log : List (StoredEvent P B)} {principal : Option P}

omit [DecidableEq P] in
theorem Numbered.cursor_eq (h : Numbered log) {before after : List (StoredEvent P B)} (hlog : log = before ++ stored :: after) :
    stored.event.cursor = before.length + 1 := by
  have hget := congrArg (fun cursors => cursors[before.length]?) h
  simp only [getElem?_map, hlog, getElem?_append_right le_rfl, Nat.sub_self,
    getElem?_cons_zero, map_some] at hget
  rw [getElem?_range' (by simp)] at hget
  have heq := some.inj hget
  omega

omit [DecidableEq P] in
theorem Numbered.concat (h : Numbered log) (audience : Option P) (body : B) :
    Numbered (log ++ [⟨audience, log.length + 1, body⟩]) := by
  unfold Numbered at h ⊢
  rw [map_append, h, length_append, length_singleton, range'_concat]
  simp [Nat.add_comm]

theorem delivered_append {above upto : ℕ} (hupto : upto ≤ log.length)
    (more : List (StoredEvent P B)) :
    delivered (log ++ more) principal above upto = delivered log principal above upto := by
  rw [delivered, delivered, take_append_of_le_length hupto]

/-- What was received so far and what comes next. -/
theorem delivered_trans {above cursor upto : ℕ} (habove : above ≤ cursor) (hcursor : cursor ≤ upto)
    (hupto : upto ≤ log.length) :
    delivered log principal above upto =
      delivered log principal above cursor ++ delivered log principal cursor upto := by
  have hsplit : log.take upto = log.take cursor ++ (log.take upto).drop cursor := by
    have htake := take_append_drop cursor (log.take upto)
    rw [take_take, min_eq_left hcursor] at htake
    exact htake.symm
  have hlength : above ≤ (log.take cursor).length := by
    rw [length_take]
    omega
  unfold delivered
  rw [← map_append, ← filter_append]
  nth_rewrite 1 [hsplit]
  rw [drop_append_of_le_length hlength]

/-- **The first of the events that are due** end where the cursor of the last one says. -/
theorem delivered_after {s : State P B} (h : Numbered s.log) (hcursor : s.cursor ≤ s.log.length)
    (limit : ℕ) :
    s.cursor ≤ s.after ((due s).take limit) ∧ s.after ((due s).take limit) ≤ s.log.length ∧
      delivered s.log s.principal s.cursor (s.after ((due s).take limit)) = (due s).take limit := by
  rw [due, ← map_take]
  rcases eq_nil_or_concat' (((s.log.drop s.cursor).filter (addressed s.principal)).take limit)
    with hnil | ⟨first, last, hconcat⟩
  · rw [hnil]
    refine ⟨le_rfl, hcursor, ?_⟩
    change map _ (filter _ ((s.log.take s.cursor).drop s.cursor)) = []
    rw [drop_eq_nil_of_le (length_take_le _ _)]
    rfl
  rw [hconcat]
  have hafter : s.after ((first ++ [last]).map StoredEvent.event) = last.event.cursor := by
    simp [State.after]
  rw [hafter]
  -- the log up to the last of them, which is the first event for the consumer behind the others
  have hfilter := take_append_drop limit ((s.log.drop s.cursor).filter (addressed s.principal))
  rw [hconcat, append_assoc, singleton_append] at hfilter
  obtain ⟨l₁, l₂, hdrop, hfirst, hrest⟩ := filter_eq_append_iff.mp hfilter.symm
  obtain ⟨l₃, l₄, rfl, hskipped, hlast, -⟩ := filter_eq_cons_iff.mp hrest
  have hlog : s.log = (s.log.take s.cursor ++ (l₁ ++ l₃)) ++ last :: l₄ := by
    rw [append_assoc, append_assoc, ← hdrop, take_append_drop]
  have hlength : (s.log.take s.cursor ++ (l₁ ++ l₃)).length = s.cursor + (l₁ ++ l₃).length := by
    rw [length_append, length_take, min_eq_left hcursor]
  have hat := h.cursor_eq hlog
  rw [hlength] at hat
  have htotal := congrArg length hlog
  rw [length_append, hlength, length_cons] at htotal
  have htake : s.log.take last.event.cursor = s.log.take s.cursor ++ (l₁ ++ l₃ ++ [last]) := by
    rw [append_cons, append_assoc (s.log.take s.cursor)] at hlog
    nth_rewrite 1 [hlog]
    apply take_left'
    rw [← append_assoc, length_append, hlength, hat, length_singleton]
  refine ⟨by omega, by omega, ?_⟩
  have hnone : l₃.filter (addressed s.principal) = [] := filter_eq_nil_iff.mpr hskipped
  rw [delivered, htake, drop_left' (by rw [length_take, min_eq_left hcursor]),
    filter_append, filter_append, hfirst, hnone, append_nil, filter_singleton,
    hlast]
  rfl

end

/-! ## The invariant -/

/-- The store keeps the end of the log, and some of it as soon as there is any. The consumer has
received what is for it up to its cursor, and a call that waits has missed nothing: it was notified
since it registered, or an append has yet to notify it, or nothing is due. -/
structure Inv (s : State P B) : Prop where
  numbered : Numbered s.log
  next : s.store.next_cursor = s.log.length + 1
  bound : s.store.next_cursor < 2 ^ 64
  kept : ∃ evicted, s.log = evicted ++ s.store.retained ∧ (s.store.retained = [] → evicted = [])
  start_le : s.start ≤ s.cursor
  cursor_le : s.cursor ≤ s.log.length
  received : s.received = delivered s.log s.principal s.start s.cursor
  gaps : ∀ gap ∈ s.gaps, gap.reason = .history_lost ∨ gap.reason = .invalid_limit
  limit : ∀ r ∈ s.reading, 0 < r.limit
  registered : ∀ r ∈ s.reading, r.registered ≤ s.notified
  parked : ∀ r ∈ s.reading, r.parked = true →
    r.registered < s.notified ∨ 0 < s.unnotified ∨ due s = []

/-- What a look at the store tells the consumer: that what comes next for it may be gone, the first
of the events that are due, or nothing yet. -/
inductive Told (s : State P B) : State P B → Prop
  | lost (gap : EventGap) (hreason : gap.reason = .history_lost)
      (hevicted : s.cursor + s.store.retained.length < s.log.length) :
      Told s { s with gaps := s.gaps ++ [gap], reading := none }
  | events (n : ℕ) (hn : 0 < n) (hdue : due s ≠ []) :
      Told s { s with
        cursor := s.after ((due s).take n)
        received := s.received ++ (due s).take n
        reading := none }
  | nothing (r : Reading) (hr : r ∈ s.reading) (hdue : due s = []) :
      Told s { s with reading := some { r with parked := true } }

section

variable {capacity} {sanitize} {s s' : State P B} {action : Action P B}

theorem Inv.latest_eq (h : Inv s) : s.store.latest = s.log.length := by
  obtain ⟨evicted, hlog, hnone⟩ := h.kept
  unfold EventState.latest
  rcases eq_nil_or_concat' s.store.retained with hnil | ⟨init, last, hconcat⟩
  · rw [hlog, hnone hnil, hnil]
    rfl
  · have hlast := h.numbered.cursor_eq (show s.log = (evicted ++ init) ++ last :: [] by
      rw [hlog, hconcat, append_assoc])
    rw [hlog, hconcat, getLast?_concat, ← append_assoc, length_append]
    exact hlast

theorem Inv.earliest_eq (h : Inv s) {evicted : List (StoredEvent P B)}
    (hlog : s.log = evicted ++ s.store.retained) (hne : s.store.retained ≠ []) :
    s.store.earliest = evicted.length + 1 := by
  obtain ⟨first, rest, hcons⟩ := exists_cons_of_ne_nil hne
  rw [EventState.earliest, hcons]
  rw [hcons] at hlog
  exact h.numbered.cursor_eq hlog

/-- **The indexed seek** finds what a search of the whole log finds, unless it is told that some of
it may be gone. -/
theorem Inv.read_decision_cases (h : Inv s) (limit : ℕ) :
    (∃ earliest, s.cursor + s.store.retained.length < s.log.length ∧
      read_decision s.store s.principal s.cursor limit =
        .return (.error ⟨.history_lost, earliest⟩)) ∨
    read_decision s.store s.principal s.cursor limit =
      match (due s).take limit with
      | [] => .wait
      | event :: events => .return (.ok ⟨event :: events, s.log.length⟩) := by
  obtain ⟨evicted, hlog, hnone⟩ := h.kept
  have hlength : s.log.length = evicted.length + s.store.retained.length := by
    rw [hlog, length_append]
  have hcursor := h.cursor_le
  have hnext : saturating_add s.cursor 1 = s.cursor + 1 := by
    have := h.next
    have := h.bound
    unfold saturating_add
    omega
  unfold read_decision
  rw [h.latest_eq, if_neg (by omega), hnext]
  by_cases hlost : s.cursor < evicted.length
  · left
    have hne : s.store.retained ≠ [] := by
      intro hnil
      rw [hnone hnil] at hlost
      exact absurd hlost (Nat.not_lt_zero _)
    rw [h.earliest_eq hlog hne, if_pos (by omega)]
    exact ⟨_, by omega, rfl⟩
  · right
    have hseek : ¬ s.cursor + 1 < s.store.earliest ∧
        min (s.cursor + 1 - s.store.earliest) s.store.retained.length =
          s.cursor - evicted.length := by
      by_cases hnil : s.store.retained = []
      · rw [hnil, length_nil, hnone hnil, length_nil] at hlength
        rw [EventState.earliest, hnil, hnone hnil]
        simp only [head?_nil, elim_none, length_nil]
        omega
      · rw [h.earliest_eq hlog hnil]
        omega
    have hdrop : s.store.retained.drop (s.cursor - evicted.length) = s.log.drop s.cursor := by
      rw [hlog, drop_append, drop_eq_nil_of_le (not_lt.mp hlost), nil_append]
    rw [if_neg hseek.1, hseek.2, hdrop, due, map_take]

/-- A look at the store gives the events that are due, reports that some are lost, or finds nothing
due. -/
theorem Inv.told (h : Inv s) (hstep : step capacity sanitize s .inspect = some s') : Told s s' := by
  simp only [step] at hstep
  split at hstep
  · rename_i limit registered hreading
    cases hstep
    obtain ⟨n, rfl⟩ := Nat.exists_eq_add_one.mpr (h.limit _ hreading)
    rcases h.read_decision_cases (n + 1) with ⟨earliest, hevicted, heq⟩ | heq
    · rw [heq]
      exact .lost ⟨.history_lost, earliest⟩ rfl hevicted
    · rw [heq]
      cases hdue : due s with
      | nil => exact .nothing _ hreading hdue
      | cons event events =>
        have hevents : Told s _ := .events (n + 1) n.succ_pos (hdue ▸ cons_ne_nil _ _)
        rw [hdue] at hevents
        exact hevents
  · nomatch hstep

/-- A look at the store keeps what was received complete and in order. -/
theorem Told.inv (htold : Told s s') (h : Inv s) : Inv s' := by
  cases htold with
  | lost gap hreason hevicted =>
    refine { h with gaps := ?_, limit := nofun, registered := nofun, parked := nofun }
    exact forall_mem_append.mpr ⟨h.gaps, forall_mem_singleton.mpr (.inl hreason)⟩
  | events n hn hdue =>
    obtain ⟨hle, hle', heq⟩ := delivered_after h.numbered h.cursor_le n
    refine { h with
      start_le := h.start_le.trans hle, cursor_le := hle', received := ?_
      limit := nofun, registered := nofun, parked := nofun }
    change s.received ++ _ = _
    rw [delivered_trans h.start_le hle hle', ← h.received, heq]
  | nothing r hr hdue =>
    refine { h with limit := ?_, registered := ?_, parked := ?_ }
    · rintro _ ⟨⟩
      exact h.limit r hr
    · rintro _ ⟨⟩
      exact h.registered r hr
    · rintro _ ⟨⟩ -
      exact .inr (.inr hdue)

/-- An event that is appended gets the next number; the store may let go of the oldest, and calls
that wait are yet to be notified. -/
theorem Inv.append (h : Inv s) {audience : Option P} {body : B} {store : EventState P B}
    (happend : append_inner capacity sanitize s.store audience body = some (stored, store)) :
    Inv { s with store := store, unnotified := s.unnotified + 1, log := s.log ++ [stored] } := by
  unfold append_inner at happend
  split at happend
  · rename_i hbound
    cases happend
    refine { h with
      numbered := ?_, next := ?_, bound := hbound, kept := ?_
      cursor_le := h.cursor_le.trans (by simp)
      received := h.received.trans (delivered_append h.cursor_le _).symm
      parked := fun _ _ _ => .inr (.inl s.unnotified.succ_pos) }
    · change Numbered (s.log ++ [⟨audience, s.store.next_cursor, sanitize body⟩])
      rw [h.next]
      exact h.numbered.concat audience (sanitize body)
    · change s.store.next_cursor + 1 = _
      rw [length_append, h.next]
      rfl
    · obtain ⟨evicted, hlog, hnone⟩ := h.kept
      -- at most the first of the retained events goes
      obtain ⟨gone, hgone⟩ : ∃ gone, s.store.retained = gone ++ (if s.store.retained.length =
          capacity then s.store.retained.tail else s.store.retained) := by
        split
        · exact ⟨s.store.retained.take 1, by rw [← drop_one, take_append_drop]⟩
        · exact ⟨[], rfl⟩
      refine ⟨evicted ++ gone, ?_, ?_⟩
      · change s.log ++ _ = _
        rw [hlog, append_assoc, append_assoc, ← append_assoc gone, ← hgone]
      · intro hnil
        exact absurd (append_eq_nil_iff.mp hnil).2 (cons_ne_nil _ _)
  · nomatch happend

/-- A call begins to look at the store. -/
theorem Inv.register (h : Inv s) {limit : ℕ} (hlimit : 0 < limit) :
    Inv { s with reading := some ⟨limit, s.notified, false⟩ } := by
  refine { h with limit := ?_, registered := ?_, parked := ?_ }
  · rintro _ ⟨⟩
    exact hlimit
  · rintro _ ⟨⟩
    exact le_rfl
  · rintro _ ⟨⟩ ⟨⟩

/-- **One step** of the store or of the consumer keeps the invariant. -/
theorem Inv.step (h : Inv s) (hcapacity : 0 < capacity)
    (hstep : step capacity sanitize s action = some s') : Inv s' := by
  cases action with
  | append audience body =>
    obtain ⟨⟨stored, store⟩, happend, rfl⟩ := map_eq_some_iff.mp hstep
    exact h.append happend
  | notify =>
    simp only [Events.step] at hstep
    split at hstep <;> cases hstep
    exact { h with
      registered := fun r hr => (h.registered r hr).trans s.notified.le_succ
      parked := fun r hr _ => .inl (Nat.lt_succ_of_le (h.registered r hr)) }
  | begin principal cursor =>
    simp only [Events.step] at hstep
    split at hstep <;> cases hstep
    rename_i hbegin
    rw [h.next] at hbegin
    refine { h with
      start_le := le_rfl, cursor_le := Nat.le_of_lt_succ hbegin, received := ?_, gaps := nofun
      limit := nofun, registered := nofun, parked := nofun }
    rw [delivered, drop_eq_nil_of_le (length_take_le _ _)]
    rfl
  | read limit =>
    simp only [Events.step] at hstep
    split at hstep
    · nomatch hstep
    split at hstep <;> cases hstep
    · refine { h with gaps := ?_ }
      exact forall_mem_append.mpr ⟨h.gaps, forall_mem_singleton.mpr (.inr rfl)⟩
    · rename_i hlimit
      exact h.register (lt_min (Nat.pos_of_ne_zero hlimit) hcapacity)
  | inspect => exact (h.told hstep).inv h
  | wake =>
    simp only [Events.step] at hstep
    split at hstep
    · rename_i limit registered hreading
      split at hstep <;> cases hstep
      exact h.register (h.limit ⟨limit, registered, true⟩ hreading)
    · nomatch hstep
  | cancel =>
    cases hstep
    exact { h with limit := nofun, registered := nofun, parked := nofun }

/-! ## Waiting calls -/

/-- How far a call is from its answer: it looks at the store, it was notified and will look again,
or it waits for the notification. -/
def Reading.stage (notified : ℕ) (r : Reading) : ℕ :=
  if r.parked then if r.registered < notified then 2 else 3 else 1

/-- How far the consumer's call is from its answer, and 0 when none is under way. -/
def remaining (s : State P B) : ℕ := s.reading.elim 0 (Reading.stage s.notified)

section

variable (h : Inv s) {r : Reading} (hr : s.reading = some r) (hdue : due s ≠ [])

include h hr hdue

/-- **No step sends a call back** for which an event is due. -/
theorem Inv.remaining_le
    (hstep : Events.step capacity sanitize s action = some s') : remaining s' ≤ remaining s := by
  have hstage : remaining s = r.stage s.notified := by rw [remaining, hr]; rfl
  cases action with
  | append audience body =>
    obtain ⟨_, _, rfl⟩ := map_eq_some_iff.mp hstep
    exact le_rfl
  | notify =>
    simp only [Events.step] at hstep
    split at hstep <;> cases hstep
    rw [remaining, hstage, hr]
    change r.stage (s.notified + 1) ≤ r.stage s.notified
    unfold Reading.stage
    split
    · split <;> split <;> omega
    · exact le_rfl
  | begin principal cursor =>
    simp only [Events.step] at hstep
    split at hstep <;> cases hstep
    exact Nat.zero_le _
  | read limit =>
    simp only [Events.step, hr] at hstep
    nomatch hstep
  | inspect =>
    cases h.told hstep with
    | lost | events => exact Nat.zero_le _
    | nothing _ _ hnone => exact absurd hnone hdue
  | wake =>
    simp only [Events.step, hr] at hstep
    split at hstep
    · rename_i limit registered heq
      obtain rfl := some.inj heq
      split at hstep <;> cases hstep
      rw [hstage]
      simp [remaining, Reading.stage, *]
    · nomatch hstep
  | cancel =>
    cases hstep
    exact Nat.zero_le _

/-- **A step that brings a call on** can always be taken: an append notifies, the call is woken, or
it looks at the store. -/
theorem Inv.remaining_lt :
    ∃ action ∈ [Action.notify, .wake, .inspect], ∃ s',
      Events.step capacity sanitize s action = some s' ∧ remaining s' < remaining s := by
  obtain ⟨limit, registered, parked⟩ := r
  cases parked with
  | false =>
    obtain ⟨s', hlook⟩ : ∃ s', Events.step capacity sanitize s .inspect = some s' := by
      simp only [Events.step, hr, some.injEq, exists_eq']
    refine ⟨.inspect, by simp, s', hlook, ?_⟩
    have hone : remaining s = 1 := by rw [remaining, hr]; rfl
    rw [hone]
    cases h.told hlook with
    | lost | events => exact Nat.one_pos
    | nothing _ _ hnone => exact absurd hnone hdue
  | true =>
    by_cases hwoken : registered < s.notified
    · refine ⟨.wake, by simp, { s with reading := some ⟨limit, s.notified, false⟩ }, ?_, ?_⟩
      · simp only [Events.step, hr, if_pos hwoken]
      · simp [remaining, Reading.stage, hr, hwoken]
    · have hunnotified : s.unnotified ≠ 0 := by
        rcases h.parked _ hr rfl with hlt | hpos | hnone
        · exact absurd hlt hwoken
        · exact hpos.ne'
        · exact absurd hnone hdue
      refine ⟨.notify, by simp, _, if_neg hunnotified, ?_⟩
      have hle := h.registered _ hr
      simp [remaining, Reading.stage, hr, hwoken, Nat.lt_succ_of_le hle]

end

end

/-- **Events are received once and in order, and no call waits for one that is there.** In every run
the consumer has received exactly the events for it up to its cursor. A look at the store gives it
the first of those that are due, or tells it that history was lost, when its cursor is behind what
was evicted. And a call under way while an event is due comes closer to its answer until it has it:
no step sends it back, and one that brings it on can be taken. -/
theorem events_received_once_in_order (hcapacity : 0 < capacity) (s : State P B)
    (h : Reachable (· = {}) (step capacity sanitize) (fun _ _ => True) s) :
    Numbered s.log ∧ s.received = delivered s.log s.principal s.start s.cursor ∧
    (∀ gap ∈ s.gaps, gap.reason = .history_lost ∨ gap.reason = .invalid_limit) ∧
    (∀ s', step capacity sanitize s .inspect = some s' → Told s s') ∧
    ∀ r, s.reading = some r → due s ≠ [] →
      (∀ action s', step capacity sanitize s action = some s' → remaining s' ≤ remaining s) ∧
      ∃ action ∈ [Action.notify, .wake, .inspect], ∃ s',
        step capacity sanitize s action = some s' ∧ remaining s' < remaining s := by
  have hinv : Inv s := by
    refine h.invariant ?_ fun s action s' hinv _ hstep => hinv.step hcapacity hstep
    rintro s rfl
    exact {
      numbered := rfl, next := rfl, bound := Nat.one_lt_two_pow (by omega)
      kept := ⟨[], rfl, fun _ => rfl⟩
      start_le := le_rfl, cursor_le := le_rfl, received := rfl, gaps := nofun
      limit := nofun, registered := nofun, parked := nofun }
  refine ⟨hinv.numbered, hinv.received, hinv.gaps, fun s' hlook => hinv.told hlook, ?_⟩
  intro r hr hdue
  exact ⟨fun action s' hstep => hinv.remaining_le hr hdue hstep, hinv.remaining_lt hr hdue⟩

/-- A call waits, an event for another principal and one for its own are appended, and it is notified,
woken and answered with the second. -/
theorem waiting_call_answered :
    ∃ s : State Bool Unit, run (step 2 id) {} [.begin (some true) 0, .read 5, .inspect,
      .append (some false) (), .append (some true) (), .notify, .wake, .inspect] = some s ∧
      s.received = [⟨2, ()⟩] ∧ s.received = delivered s.log s.principal s.start s.cursor := by
  refine ⟨_, rfl, by decide, ?_⟩
  apply (events_received_once_in_order 2 id Nat.two_pos _ ?_).2.1
  refine reachable_of_run (.start rfl) (fun _ _ _ => trivial)
    (show run (step 2 id) {} [.begin (some true) 0, .read 5, .inspect, .append (some false) (),
      .append (some true) (), .notify, .wake, .inspect] = _ from rfl)

end BobbyBrowser.Events
