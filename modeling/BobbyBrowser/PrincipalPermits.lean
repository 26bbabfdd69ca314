/-
Permits of principals (`acquire_principal_permit` in `crates/broker/src/auth.rs`).

A request is let in with a permit of its principal's semaphore. The semaphore is looked up in a
map, made if it is not there, and asked for a permit only then. When the map is full, every
semaphore that has all its permits is taken out of it, also one that a request has looked up and
not asked yet; the next request of that principal is given another one.
-/
import BobbyBrowser.Keyed
import BobbyBrowser.Transition

set_option autoImplicit false

namespace BobbyBrowser.PrincipalPermits

open Transition Option List

abbrev PrincipalId := ℕ

/-- `InterfaceConfig`, as far as it bounds requests. -/
structure InterfaceConfig where
  max_connections : ℕ
  max_principals : ℕ
  max_in_flight_per_principal : ℕ

/-- The `InterfaceError` of a refusal, whose code is `ResourceExhausted`. -/
structure ResourceExhausted where
  message : String
  retry_after_ms : Option ℕ

/-- Where a request stands: it has a permit of the broker, its principal has no semaphore, it has
the semaphore, it has the permit, or it was answered. -/
inductive Stage
  | arrived
  | missing
  | found (semaphore : ℕ)
  | admitted (semaphore : ℕ)
  | ended (refusal : Option ResourceExhausted)

/-- The semaphore that the request has. -/
def Stage.semaphore : Stage → Option ℕ
  | .found semaphore | .admitted semaphore => some semaphore
  | _ => none

/-- The semaphore of which the request has a permit. -/
def Stage.permit : Stage → Option ℕ
  | .admitted semaphore => some semaphore
  | _ => none

theorem semaphore_of_permit {stage : Stage} {semaphore : ℕ} (h : stage.permit = some semaphore) :
    stage.semaphore = some semaphore := by
  cases stage with
  | admitted => exact h
  | _ => nomatch h

structure Request where
  principal : PrincipalId
  stage : Stage

/-- `AppState`: the permits left of the broker and of each semaphore, how many semaphores were made,
the map, and the requests. A semaphore that is not made yet has all its permits. -/
structure AppState where
  in_flight_requests : ℕ
  available_permits : ℕ → ℕ
  made : ℕ := 0
  principal_permits : List (PrincipalId × ℕ) := []
  requests : List Request := []

namespace AppState

variable (s : AppState)

/-- The requests of a principal that hold a permit. -/
def in_flight (principal : PrincipalId) : ℕ :=
  s.requests.countP fun request => request.principal = principal ∧ request.stage.permit.isSome

/-- A request goes on. -/
def advance (index : ℕ) (request : Request) (stage : Stage) : AppState :=
  { s with requests := s.requests.set index { request with stage } }

/-- A request is answered, and gives back its permit of the broker. -/
def answer (index : ℕ) (request : Request) (refusal : Option ResourceExhausted) : AppState :=
  { s.advance index request (.ended refusal) with in_flight_requests := s.in_flight_requests + 1 }

end AppState

/-- The semaphore of a principal in the map. -/
def semaphore_of (permits : List (PrincipalId × ℕ)) (principal : PrincipalId) : Option ℕ :=
  (Keyed.get Prod.fst principal permits).map Prod.snd

variable (config : InterfaceConfig)

def initial : AppState where
  in_flight_requests := config.max_connections
  available_permits := fun _ => config.max_in_flight_per_principal

/-- The map after the eviction of idle semaphores. -/
def retained (s : AppState) : List (PrincipalId × ℕ) :=
  if config.max_principals ≤ s.principal_permits.length then
    s.principal_permits.filter fun entry =>
      s.available_permits entry.2 < config.max_in_flight_per_principal
  else s.principal_permits

/-- What happens to a request: its arrival, the three parts of `acquire_principal_permit`, and its
end, also when its handler is dropped. -/
inductive Action
  | arrive (principal : PrincipalId)
  | look_up (index : ℕ)
  | make (index : ℕ)
  | acquire (index : ℕ)
  | leave (index : ℕ)

/-- Requests of any principals, in any order. -/
def step (s : AppState) : Action → Option AppState
  | .arrive principal =>
    if s.in_flight_requests = 0 then
      some { s with requests := s.requests ++ [⟨principal,
        .ended (some ⟨"interface in-flight request capacity exhausted", some 1000⟩)⟩] }
    else
      some { s with
        in_flight_requests := s.in_flight_requests - 1
        requests := s.requests ++ [⟨principal, .arrived⟩] }
  | .look_up index => s.requests[index]?.bind fun request =>
    match request.stage, semaphore_of s.principal_permits request.principal with
    | .arrived, some semaphore => some (s.advance index request (.found semaphore))
    | .arrived, none => some (s.advance index request .missing)
    | _, _ => none
  | .make index => s.requests[index]?.bind fun request =>
    match request.stage, semaphore_of (retained config s) request.principal with
    | .missing, some semaphore =>
      some { s.advance index request (.found semaphore) with
        principal_permits := retained config s }
    | .missing, none =>
      some { s.advance index request (.found s.made) with
        made := s.made + 1
        principal_permits := Keyed.insert Prod.fst (request.principal, s.made) (retained config s) }
    | _, _ => none
  | .acquire index => s.requests[index]?.bind fun request =>
    match request.stage with
    | .found semaphore =>
      if s.available_permits semaphore = 0 then
        some (s.answer index request (some ⟨"principal in-flight capacity exhausted", some 1000⟩))
      else
        some { s.advance index request (.admitted semaphore) with
          available_permits := fun other =>
            s.available_permits other - if semaphore = other then 1 else 0 }
    | _ => none
  | .leave index => s.requests[index]?.bind fun request =>
    match request.stage with
    | .ended _ => none
    | stage =>
      some { s.answer index request none with
        available_permits := fun semaphore =>
          s.available_permits semaphore + if stage.permit = some semaphore then 1 else 0 }

/-- The condition on a step: when idle semaphores are taken out of the map, no request has one. -/
def Settled (s : AppState) : Action → Prop
  | .make _ => config.max_principals ≤ s.principal_permits.length →
      ∀ request ∈ s.requests, ∀ semaphore ∈ request.stage.semaphore,
        s.available_permits semaphore < config.max_in_flight_per_principal
  | _ => True

/-! ## A principal has one semaphore -/

/-- Permits are held or left, and who has a semaphore has the one of the map. -/
structure Inv (s : AppState) : Prop where
  permits : ∀ semaphore,
    s.available_permits semaphore + s.requests.countP (·.stage.permit = some semaphore)
      = config.max_in_flight_per_principal
  mapped : ∀ request ∈ s.requests, ∀ semaphore ∈ request.stage.semaphore,
    semaphore_of s.principal_permits request.principal = some semaphore

variable {config} {s : AppState} {index : ℕ} {request : Request} {stage : Stage}

/-- A request that arrives has no permit yet. -/
theorem Inv.arrive {left : ℕ} (h : Inv config s) (hsemaphore : request.stage.semaphore = none) :
    Inv config { s with in_flight_requests := left, requests := s.requests ++ [request] } := by
  constructor
  · intro semaphore
    have hpermit : request.stage.permit ≠ some semaphore := by
      intro hpermit
      rw [semaphore_of_permit hpermit] at hsemaphore
      nomatch hsemaphore
    rw [countP_append, countP_singleton, decide_eq_false hpermit]
    exact h.permits semaphore
  · refine forall_mem_append.mpr ⟨h.mapped, forall_mem_singleton.mpr ?_⟩
    rw [hsemaphore]
    exact nofun

/-- A request goes on. The permit it takes or gives back is taken from or given to the semaphore. -/
theorem Inv.advance {left made : ℕ} {available : ℕ → ℕ} {permits : List (PrincipalId × ℕ)}
    (h : Inv config s) (hat : s.requests[index]? = some request)
    (hpermits : ∀ semaphore, available semaphore + (if stage.permit = some semaphore then 1 else 0)
      = s.available_permits semaphore + if request.stage.permit = some semaphore then 1 else 0)
    (hothers : ∀ other ∈ s.requests, ∀ semaphore ∈ other.stage.semaphore,
      semaphore_of permits other.principal = some semaphore)
    (hafter : ∀ semaphore ∈ stage.semaphore, semaphore_of permits request.principal = some semaphore) :
    Inv config ⟨left, available, made, permits, (s.advance index request stage).requests⟩ := by
  obtain ⟨hlt, rfl⟩ := List.getElem?_eq_some_iff.mp hat
  constructor
  · intro semaphore
    have hpermits := hpermits semaphore
    have hcount := h.permits semaphore
    have hheld : (if s.requests[index].stage.permit = some semaphore then 1 else 0)
        ≤ s.requests.countP (·.stage.permit = some semaphore) := by
      split
      · rename_i hheld
        exact countP_pos_iff.mpr ⟨_, getElem_mem hlt, decide_eq_true hheld⟩
      · exact Nat.zero_le _
    rw [AppState.advance, countP_set hlt]
    simp only [decide_eq_true_eq]
    omega
  · intro other hother
    rcases mem_or_eq_of_mem_set hother with hold | rfl
    · exact hothers other hold
    · exact hafter

/-- An eviction keeps the semaphores that requests have, if it finds them in use. -/
theorem Inv.retained (h : Inv config s) (hok : Settled config s (.make index)) :
    ∀ other ∈ s.requests, ∀ semaphore ∈ other.stage.semaphore,
      semaphore_of (retained config s) other.principal = some semaphore := by
  intro other hother semaphore hsemaphore
  have hmapped := h.mapped other hother semaphore hsemaphore
  unfold PrincipalPermits.retained
  by_cases hfull : config.max_principals ≤ s.principal_permits.length
  · rw [if_pos hfull]
    obtain ⟨entry, hentry, rfl⟩ := map_eq_some_iff.mp hmapped
    have hbusy := hok hfull other hother entry.2 hsemaphore
    rw [semaphore_of, Keyed.get_filter_of_pos hentry (decide_eq_true hbusy)]
    rfl
  · rw [if_neg hfull]
    exact hmapped

theorem semaphore_of_insert (permits : List (PrincipalId × ℕ)) (entry : PrincipalId × ℕ)
    (principal : PrincipalId) :
    semaphore_of (Keyed.insert Prod.fst entry permits) principal
      = if principal = entry.1 then some entry.2 else semaphore_of permits principal := by
  unfold semaphore_of
  by_cases hsame : principal = entry.1
  · rw [if_pos hsame, hsame, Keyed.get_insert_self]
    rfl
  · rw [if_neg hsame, Keyed.get_insert_of_ne hsame]

/-- **One step** of the server keeps the permits accounted for, if an eviction finds in use each
semaphore that a request has. -/
theorem Inv.step {action : Action} {t : AppState} (h : Inv config s) (hok : Settled config s action)
    (ht : step config s action = some t) : Inv config t := by
  cases action with
  | arrive principal =>
    simp only [PrincipalPermits.step] at ht
    split at ht
    · cases ht
      exact h.arrive rfl
    · cases ht
      exact h.arrive rfl
  | look_up index =>
    obtain ⟨request, hat, ht⟩ := bind_eq_some_iff.mp ht
    split at ht
    · rename_i semaphore hstage hfound
      cases ht
      refine h.advance hat (fun _ => by rw [hstage]; rfl) h.mapped ?_
      rintro _ ⟨⟩
      exact hfound
    · rename_i hstage _
      cases ht
      exact h.advance hat (fun _ => by rw [hstage]; rfl) h.mapped nofun
    · nomatch ht
  | make index =>
    obtain ⟨request, hat, ht⟩ := bind_eq_some_iff.mp ht
    have hretained := h.retained hok
    split at ht
    · rename_i semaphore hstage hfound
      cases ht
      refine h.advance hat (fun _ => by rw [hstage]; rfl) hretained ?_
      rintro _ ⟨⟩
      exact hfound
    · rename_i hstage hnone
      cases ht
      refine h.advance hat (fun _ => by rw [hstage]; rfl) ?_ ?_
      · -- the principal has no semaphore, so that no request of it has one
        intro other hother semaphore hsemaphore
        have hfound := hretained other hother semaphore hsemaphore
        have hne : other.principal ≠ request.principal := by
          intro hsame
          rw [hsame, hnone] at hfound
          nomatch hfound
        rw [semaphore_of_insert, if_neg hne]
        exact hfound
      · rintro _ ⟨⟩
        rw [semaphore_of_insert, if_pos rfl]
    · nomatch ht
  | acquire index =>
    obtain ⟨request, hat, ht⟩ := bind_eq_some_iff.mp ht
    split at ht
    · rename_i semaphore hstage
      split at ht
      · cases ht
        exact h.advance hat (fun _ => by rw [hstage]; rfl) h.mapped nofun
      · rename_i hleft
        cases ht
        refine h.advance hat (fun other => ?_) h.mapped ?_
        · simp only [hstage, Stage.permit, some.injEq, reduceCtorEq, if_false]
          by_cases hother : semaphore = other
          · rw [if_pos hother, ← hother]
            omega
          · rw [if_neg hother]
            rfl
        · rintro _ ⟨⟩
          exact h.mapped request (mem_of_getElem? hat) semaphore (by rw [hstage]; rfl)
    · nomatch ht
  | leave index =>
    obtain ⟨request, hat, ht⟩ := bind_eq_some_iff.mp ht
    split at ht
    · nomatch ht
    · cases ht
      exact h.advance hat (fun _ => rfl) h.mapped nofun

/-- **The bound on the requests of a principal.** In every run in which no semaphore is evicted
under a request that has it, no principal ever has more requests in flight than it may have. -/
theorem principal_in_flight_le
    (h : Reachable (· = initial config) (PrincipalPermits.step config) (Settled config) s)
    (principal : PrincipalId) : s.in_flight principal ≤ config.max_in_flight_per_principal := by
  have hinv : Inv config s := by
    refine Reachable.invariant (I := Inv config) ?_ (fun _ _ _ => Inv.step) h
    rintro s rfl
    exact ⟨fun _ => rfl, nofun⟩
  -- every permit of the principal is one of the semaphore in the map
  have hle : s.in_flight principal ≤ s.requests.countP
      (·.stage.permit = some ((semaphore_of s.principal_permits principal).getD 0)) := by
    refine countP_mono_left fun request hrequest hheld => decide_eq_true ?_
    obtain ⟨rfl, hpermit⟩ := of_decide_eq_true hheld
    obtain ⟨semaphore, hpermit⟩ := isSome_iff_exists.mp hpermit
    rw [hinv.mapped request hrequest semaphore (semaphore_of_permit hpermit), hpermit, getD_some]
  have hpermits := hinv.permits ((semaphore_of s.principal_permits principal).getD 0)
  omega

/-! ## A semaphore that is evicted too early -/

/-- One request of each principal, and a map that is full with one principal. -/
def narrow : InterfaceConfig := ⟨8, 1, 1⟩

/-- A request whose principal has no semaphore is let in. -/
def enters (index : ℕ) (principal : PrincipalId) : List Action :=
  [.arrive principal, .look_up index, .make index, .acquire index]

/-- Principal 7 is between the look-up and the permit when principal 8 comes. -/
def overtaken : List Action :=
  enters 0 7 ++ [.leave 0, .arrive 7, .look_up 1] ++ enters 2 8 ++ [.leave 2] ++ enters 3 7
    ++ [.acquire 1]

/-- **Two requests in flight where one is allowed**: one of them has a semaphore that is no longer
in the map. -/
theorem principal_in_flight_exceeded :
    ∃ s, Reachable (· = initial narrow) (PrincipalPermits.step narrow) (fun _ _ => True) s ∧
      narrow.max_in_flight_per_principal < s.in_flight 7 := by
  refine exists_of_run overtaken rfl (fun _ _ _ => trivial) ?_
  decide +kernel

instance (s : AppState) (action : Action) : Decidable (Settled config s action) := by
  cases action with
  | make => exact inferInstanceAs (Decidable (_ → ∀ request ∈ s.requests, _))
  | _ => exact isTrue trivial

/-- The semaphore of principal 7 is evicted when nobody has it, and made again. -/
theorem principal_returns_in_flight_le :
    ∃ s, Reachable (· = initial narrow) (PrincipalPermits.step narrow) (Settled narrow) s ∧
      s.made = 3 ∧ s.in_flight 7 = 1 ∧ s.in_flight 7 ≤ narrow.max_in_flight_per_principal := by
  obtain ⟨s, hreached, hmade, hone⟩ : ∃ s, Reachable (· = initial narrow)
      (PrincipalPermits.step narrow) (Settled narrow) s ∧ s.made = 3 ∧ s.in_flight 7 = 1 := by
    refine exists_of_orderly_run
      (enters 0 7 ++ [.leave 0] ++ enters 1 8 ++ [.leave 1] ++ enters 2 7) rfl ?_
    decide +kernel
  exact ⟨s, hreached, hmade, hone, principal_in_flight_le hreached 7⟩

end BobbyBrowser.PrincipalPermits
