/-
Connections of revoked companions.

A revocation is announced once, to the tasks that listen, and the next announcement
takes its place. A task that has authenticated and does not listen yet misses it, and
so does a task that looks too late. When neither happens, a task that has handled
everything it was told has given up the connection of a revoked companion.
-/
import BobbyBrowser.Companions

set_option autoImplicit false

namespace BobbyBrowser.Companions

open Option Keyed
open List hiding getElem?_eq_some_iff
open Watch Transition
open CompanionRegistry (is_revoked pair_claimed pairing_refusal companion revoke)

variable {sha256 : String → Digest}

/-! ## The registry -/

/-- Two registries revoke the same companions, and announce the same. -/
structure Alike (registry registry' : CompanionRegistry) : Prop where
  revoked : ∀ id, registry'.is_revoked id = registry.is_revoked id
  revocations : registry'.revocations = registry.revocations

theorem Alike.refl (registry : CompanionRegistry) : Alike registry registry := ⟨fun _ => rfl, rfl⟩

theorem alike_issue (registry : CompanionRegistry) (code : String) (now expires_at : Instant) :
    Alike registry (registry.issue_pairing_code code now expires_at) := ⟨fun _ => rfl, rfl⟩

theorem alike_claim (registry : CompanionRegistry) (code : String) (now : Instant) :
    Alike registry (registry.claim_pairing_code code now).2 := by
  unfold CompanionRegistry.claim_pairing_code
  split
  · exact .refl registry
  · split
    · exact ⟨fun _ => rfl, rfl⟩
    · exact ⟨fun _ => rfl, rfl⟩

/-- Who authenticates by a digest is not revoked. -/
theorem authenticate_digest_revoked {registry : CompanionRegistry} {digest : Digest}
    {paired : PairedCompanion} (h : registry.authenticate_digest digest = .ok paired) :
    registry.is_revoked paired.companion_id = false := by
  unfold CompanionRegistry.authenticate_digest at h
  split at h
  · nomatch h
  split at h
  · nomatch h
  rename_i record hrecord
  split at h
  · nomatch h
  rename_i hrevoked
  split at h
  · nomatch h
  · rw [← Except.ok.inj h, is_revoked, hrecord]
    exact Bool.not_eq_true _ ▸ hrevoked

/-- An authentication revokes nobody, and who reconnects is not revoked. -/
theorem alike_authenticate (registry : CompanionRegistry) (bearer : String) (now : Instant) :
    Alike registry (registry.authenticate_bearer sha256 bearer now).2 ∧
      ∀ paired, (registry.authenticate_bearer sha256 bearer now).1 = .ok (.reconnect paired) →
        registry.is_revoked paired.companion_id = false := by
  unfold CompanionRegistry.authenticate_bearer
  split
  · split
    · exact ⟨⟨fun _ => rfl, rfl⟩, nofun⟩
    · exact ⟨⟨fun _ => rfl, rfl⟩, nofun⟩
  split
  · exact ⟨.refl registry, nofun⟩
  · rename_i paired hpaired
    refine ⟨.refl registry, ?_⟩
    rintro other ⟨⟩
    exact authenticate_digest_revoked hpaired

/-- A pairing revokes nobody, and who is paired is not revoked. -/
theorem alike_pair_claimed (registry : CompanionRegistry) (claim : PairingCodeClaim)
    (input : PairingInput) (now : Instant) (credential_sha256 : Digest) :
    Alike registry (registry.pair_claimed claim input now credential_sha256).2 ∧
      ∀ paired, (registry.pair_claimed claim input now credential_sha256).1 = .ok paired →
        registry.is_revoked paired.companion_id = false := by
  unfold pair_claimed
  split
  · exact ⟨.refl registry, fun _ hok => by cases hok⟩
  rename_i hrefusal
  have hrevoked : registry.is_revoked input.companion_id = false := by
    unfold pairing_refusal at hrefusal
    split at hrefusal
    · cases hrefusal
    · split at hrefusal
      · cases hrefusal
      · rename_i hrevoked
        exact Bool.not_eq_true _ ▸ hrevoked
  refine ⟨⟨?_, rfl⟩, ?_⟩
  · intro id
    unfold is_revoked companion at hrevoked ⊢
    generalize hrecord : (⟨input.companion_id, input.profile_id, credential_sha256, false⟩ :
      CompanionRecord) = record
    have hkey : record.companion_id = input.companion_id := by rw [← hrecord]
    by_cases hid : id = record.companion_id
    · rw [hid, get_insert_self, hkey, hrevoked, ← hrecord]
      rfl
    · rw [get_insert_of_ne hid]
  · rintro paired ⟨⟩
    exact hrevoked

/-- A revocation: the companion is revoked, and this is announced to those who listen. -/
theorem revoke_spec (registry : CompanionRegistry) (id : CompanionId) (listened : Bool) :
    Alike registry (registry.revoke id listened).2 ∨
      ((∀ other, other ≠ id →
          (registry.revoke id listened).2.is_revoked other = registry.is_revoked other) ∧
        (registry.revoke id listened).2.revocations = registry.revocations.send listened id) := by
  unfold revoke
  split
  · exact .inl (.refl registry)
  refine .inr ⟨?_, rfl⟩
  intro other hne
  unfold is_revoked companion Keyed.get
  simp only [find?_map]
  have hkey : ((fun record : CompanionRecord => decide (record.companion_id = other)) ∘
      fun record => if record.companion_id = id then { record with revoked := true } else record)
      = fun record => decide (record.companion_id = other) := by
    funext record
    simp only [Function.comp_apply]
    split <;> rfl
  rw [hkey]
  cases hfind : registry.companions.find? fun record => decide (record.companion_id = other) with
  | none => rfl
  | some record =>
    have hother : record.companion_id = other := by simpa using find?_some hfind
    simp only [map_some, any_some]
    rw [if_neg (hother.symm ▸ hne)]

/-! ## What holds of every task -/

/-- The companion whose connection a task has registered or is about to, while it can be told. -/
def Stage.companion : Stage → Option PairedCompanion
  | .paired companion | .serving companion | .notified companion => some companion
  | .upgrading _ | .pairing _ | .closing _ | .done => none

/-- The companion of a task that has authenticated and does not listen yet. -/
def Stage.unsubscribed : Stage → Option PairedCompanion
  | .upgrading (.reconnect companion) => some companion
  | _ => none

/-- The task will find out, or is about to: the announcement is there. -/
def Told (revocations : Channel CompanionId) (id : CompanionId) (task : Task) : Prop :=
  revocations.value = id ∧
    match task.stage with
    | .notified _ => True
    | _ => revocations.has_changed task.seen = true

/-- What holds of a task. -/
structure Fine (registry : CompanionRegistry) (task : Task) : Prop where
  seen_le : task.seen ≤ registry.revocations.version
  unsubscribed : ∀ companion ∈ task.stage.unsubscribed,
    registry.is_revoked companion.companion_id = false
  told : ∀ companion ∈ task.stage.companion,
    registry.is_revoked companion.companion_id = true →
      Told registry.revocations companion.companion_id task

theorem Fine.alike {registry registry' : CompanionRegistry} {task : Task}
    (h : Fine registry task) (halike : Alike registry registry') : Fine registry' task where
  seen_le := by
    rw [halike.revocations]
    exact h.seen_le
  unsubscribed companion hcompanion := by
    rw [halike.revoked]
    exact h.unsubscribed companion hcompanion
  told companion hcompanion hrevoked := by
    rw [halike.revocations]
    rw [halike.revoked] at hrevoked
    exact h.told companion hcompanion hrevoked

/-- A task whose companion is not revoked is fine, told or not. -/
theorem fine_of_active {registry : CompanionRegistry} {task : Task}
    (hseen : task.seen ≤ registry.revocations.version)
    (hunsubscribed : ∀ companion ∈ task.stage.unsubscribed,
      registry.is_revoked companion.companion_id = false)
    (hcompanion : ∀ companion ∈ task.stage.companion,
      registry.is_revoked companion.companion_id = false) : Fine registry task where
  seen_le := hseen
  unsubscribed := hunsubscribed
  told companion hmem hrevoked := by
    rw [hcompanion companion hmem] at hrevoked
    nomatch hrevoked

/-- The companion whose connection a task has registered. -/
def Stage.registered : Stage → Option PairedCompanion
  | .serving companion | .notified companion | .closing companion => some companion
  | .upgrading _ | .pairing _ | .paired _ | .done => none

/-- The session is the task's. -/
def Serves (task : Task) (session : ActiveSession) : Prop :=
  task.stage.registered = some ⟨session.companion_id, session.profile_id⟩

/-- What holds in every state. -/
structure Inv (s : Server) : Prop where
  tasks : ∀ task ∈ s.tasks, Fine s.registry task
  unique : Unique ActiveSession.profile_id s.sessions
  sessions : ∀ session ∈ s.sessions, ∃ task, s.tasks[session.connection_id]? = some task ∧
    Serves task session

variable {s : Server} {k : ℕ} {task task' : Task}

theorem Inv.fine (h : Inv s) (hk : s.tasks[k]? = some task) : Fine s.registry task :=
  h.tasks task (mem_of_getElem? hk)

theorem Inv.registry (h : Inv s) {registry : CompanionRegistry} (halike : Alike s.registry registry)
    (claims : List PairingCodeClaim) : Inv { s with registry, claims } :=
  ⟨fun task htask => (h.tasks task htask).alike halike, h.unique, h.sessions⟩

/-- A task that goes on keeps the invariant, if it keeps the session that it serves. -/
theorem Inv.proceed (h : Inv s) (hk : s.tasks[k]? = some task) (hfine : Fine s.registry task')
    (hserves : ∀ session ∈ s.sessions, session.connection_id = k → Serves task session →
      Serves task' session) : Inv (s.advance k task') := by
  refine ⟨?_, h.unique, ?_⟩
  · intro other hother
    rcases mem_or_eq_of_mem_set hother with hmem | rfl
    · exact h.tasks other hmem
    · exact hfine
  intro session hsession
  obtain ⟨before, hbefore, hmine⟩ := h.sessions session hsession
  have hlt : k < s.tasks.length := (List.getElem?_eq_some_iff.mp hk).1
  by_cases hid : session.connection_id = k
  · refine ⟨task', ?_, ?_⟩
    · change (s.tasks.set k task')[session.connection_id]? = some task'
      rw [hid, getElem?_set_self hlt]
    · rw [hid, hk] at hbefore
      exact hserves session hsession hid (some.inj hbefore ▸ hmine)
  · refine ⟨before, ?_, hmine⟩
    change (s.tasks.set k task')[session.connection_id]? = some before
    rw [getElem?_set_ne (Ne.symm hid)]
    exact hbefore

theorem Inv.advance (h : Inv s) (hk : s.tasks[k]? = some task) (hfine : Fine s.registry task')
    (hnone : task.stage.registered = none) : Inv (s.advance k task') := by
  refine h.proceed hk hfine ?_
  intro session _ _ hserves
  rw [Serves, hnone] at hserves
  nomatch hserves

theorem Inv.stay (h : Inv s) (hk : s.tasks[k]? = some task) (hfine : Fine s.registry task')
    (hsame : task'.stage.registered = task.stage.registered) : Inv (s.advance k task') :=
  h.proceed hk hfine fun _ _ _ hserves => hsame.trans hserves

variable {companion : PairedCompanion}

/-- Registering a session replaces the one of its profile, and makes it this task's. -/
theorem Inv.register (h : Inv s) (hk : s.tasks[k]? = some task)
    (hstage : task.stage = .paired companion) :
    Inv ((s.register k companion).advance k { task with stage := .serving companion }) := by
  have hfine := h.fine hk
  have hserving : Fine s.registry { task with stage := .serving companion } := by
    refine ⟨hfine.seen_le, nofun, ?_⟩
    rintro other ⟨⟩ hrevoked
    have htold := hfine.told companion (by rw [hstage]; rfl) hrevoked
    rw [Told, hstage] at htold
    exact htold
  -- the task had no session before it registered
  have hadvanced := h.advance hk hserving (by rw [hstage]; rfl)
  refine ⟨hadvanced.tasks, h.unique.insert, ?_⟩
  intro session hsession
  rcases mem_insert.mp hsession with ⟨hold, -⟩ | rfl
  · exact hadvanced.sessions session hold
  · exact ⟨_, getElem?_set_self (List.getElem?_eq_some_iff.mp hk).1, rfl⟩

/-- A task that closes takes its own session away, and no other's. -/
theorem Inv.unregister (h : Inv s) (hk : s.tasks[k]? = some task)
    (hstage : task.stage = .closing companion) :
    Inv ((s.unregister k companion).advance k { task with stage := .done }) := by
  have hdone : Fine s.registry { task with stage := .done } :=
    fine_of_active (h.fine hk).seen_le nofun nofun
  -- the only session of the task is that of its profile
  have hmine : ∀ session ∈ s.sessions, session.connection_id = k →
      get ActiveSession.profile_id companion.profile_id s.sessions = some session := by
    intro session hsession hid
    obtain ⟨before, hbefore, hserves⟩ := h.sessions session hsession
    rw [hid, hk] at hbefore
    rw [← some.inj hbefore, Serves, hstage] at hserves
    rw [some.inj hserves]
    exact h.unique.get_of_mem hsession rfl
  unfold Server.unregister
  split
  · rename_i hany
    have hremoved : Inv { s with
        sessions := remove ActiveSession.profile_id companion.profile_id s.sessions } :=
      ⟨h.tasks, h.unique.remove, fun session hsession =>
        h.sessions session (mem_remove.mp hsession).1⟩
    refine hremoved.proceed hk hdone ?_
    intro session hsession hid
    obtain ⟨hmem, hne⟩ := mem_remove.mp hsession
    exact absurd (key_of_get (hmine session hmem hid)) hne
  · rename_i hany
    refine h.proceed hk hdone ?_
    intro session hsession hid
    rw [hmine session hsession hid] at hany
    simp [hid] at hany

/-- The condition on a step: when a companion is revoked, no task of it has authenticated without
listening yet, and every other companion that was revoked has no task left that is to be told. -/
def Timely (s : Server) : Action → Prop
  | .revoke id =>
    (∀ task ∈ s.tasks, ∀ companion ∈ task.stage.unsubscribed, companion.companion_id ≠ id) ∧
    ∀ task ∈ s.tasks, ∀ companion ∈ task.stage.companion, companion.companion_id ≠ id →
      s.registry.is_revoked companion.companion_id = false
  | _ => True

/-- **A revocation** in time. -/
theorem Inv.revoke {id : CompanionId} (h : Inv s) (hok : Timely s (.revoke id)) :
    Inv { s with registry := (s.registry.revoke id (s.tasks.any fun task => task.stage.listens)).2 }
    := by
  obtain ⟨hunsubscribed, hothers⟩ := hok
  rcases revoke_spec s.registry id (s.tasks.any fun task => task.stage.listens) with
    halike | ⟨hrevoked, hsent⟩
  · exact h.registry halike s.claims
  refine ⟨?_, h.unique, h.sessions⟩
  intro task htask
  have hfine := h.tasks task htask
  refine ⟨?_, ?_, ?_⟩
  · rw [hsent]
    exact Nat.le_trans hfine.seen_le (version_le_send _ _ _)
  · intro companion hcompanion
    rw [hrevoked _ (hunsubscribed task htask companion hcompanion)]
    exact hfine.unsubscribed companion hcompanion
  intro companion hcompanion hnow
  by_cases hid : companion.companion_id = id
  · -- the task listens, so that the announcement is made
    have hlistens : (s.tasks.any fun task => task.stage.listens) = true := by
      refine any_eq_true.mpr ⟨task, htask, ?_⟩
      revert hcompanion
      cases task.stage with
      | paired | serving | notified => exact fun _ => rfl
      | _ => exact nofun
    have hnews : (s.registry.revocations.send true id).has_changed task.seen = true ∧
        (s.registry.revocations.send true id).value = id := has_changed_send hfine.seen_le
    rw [hsent, hlistens, hid]
    refine ⟨hnews.2, ?_⟩
    cases task.stage with
    | notified other => exact trivial
    | _ => exact hnews.1
  · rw [hrevoked _ hid, hothers task htask companion hcompanion hid] at hnow
    nomatch hnow

/-- A new connection comes with a task of its own. -/
theorem Inv.upgrade (h : Inv s) {registry : CompanionRegistry} (halike : Alike s.registry registry)
    (hfine : Fine registry task) : Inv { s with registry, tasks := s.tasks ++ [task] } := by
  refine ⟨?_, h.unique, ?_⟩
  · exact forall_mem_append.mpr
      ⟨fun other hold => (h.tasks other hold).alike halike, forall_mem_singleton.mpr hfine⟩
  · intro session hsession
    obtain ⟨before, hbefore, hmine⟩ := h.sessions session hsession
    refine ⟨before, ?_, hmine⟩
    rw [getElem?_append_left (List.getElem?_eq_some_iff.mp hbefore).1]
    exact hbefore

/-- **One step of the server** keeps the invariant, if a revocation is timely. -/
theorem Inv.step {t : Server} {action : Action} (h : Inv s) (hok : Timely s action)
    (ht : step sha256 s action = some t) : Inv t := by
  cases action with
  | issue_pairing_code code now expires_at =>
    cases ht
    exact h.registry (alike_issue s.registry code now expires_at) s.claims
  | claim_pairing_code code now =>
    have halike := alike_claim s.registry code now
    simp only [Companions.step] at ht
    split at ht
    · rename_i heq
      cases ht
      rw [heq] at halike
      exact h.registry halike s.claims
    · rename_i heq
      cases ht
      rw [heq] at halike
      exact h.registry halike _
  | pair_claimed index input now credential_sha256 =>
    obtain ⟨claim, -, ht⟩ := bind_eq_some_iff.mp ht
    cases ht
    exact h.registry (alike_pair_claimed s.registry claim input now credential_sha256).1 _
  | upgrade bearer now =>
    obtain ⟨halike, hrevoked⟩ := @alike_authenticate sha256 s.registry bearer now
    simp only [Companions.step] at ht
    split at ht
    · rename_i heq
      cases ht
      rw [heq] at halike
      exact h.registry halike s.claims
    rename_i authentication registry heq
    cases ht
    rw [heq] at halike hrevoked
    refine h.upgrade halike (fine_of_active (Nat.zero_le _) ?_ nofun)
    intro companion hcompanion
    cases authentication with
    | pairing claim => nomatch hcompanion
    | reconnect paired =>
      rw [← some.inj hcompanion, halike.revoked]
      exact hrevoked paired rfl
  | serve k =>
    obtain ⟨task, hk, ht⟩ := bind_eq_some_iff.mp ht
    have hfine := h.fine hk
    split at ht
    · rename_i claim hstage
      cases ht
      exact h.advance hk (fine_of_active (Nat.le_refl _) nofun nofun) (by rw [hstage]; rfl)
    · rename_i paired hstage
      cases ht
      refine h.advance hk (fine_of_active (Nat.le_refl _) nofun ?_) (by rw [hstage]; rfl)
      rintro companion ⟨⟩
      exact hfine.unsubscribed paired (by rw [hstage]; rfl)
    · nomatch ht
  | complete_pairing k request now credential_sha256 =>
    obtain ⟨task, hk, ht⟩ := bind_eq_some_iff.mp ht
    have hseen := (h.fine hk).seen_le
    split at ht
    · rename_i claim hstage _
      cases ht
      exact h.advance hk (fine_of_active hseen nofun nofun) (by rw [hstage]; rfl)
    · rename_i claim request hstage _
      have hnone : task.stage.registered = none := by rw [hstage]; rfl
      obtain ⟨halike, hrevoked⟩ :=
        alike_pair_claimed s.registry claim request.input now credential_sha256
      split at ht
      · cases ht
        exact h.advance hk (fine_of_active hseen nofun nofun) hnone
      split at ht
      · rename_i heq
        cases ht
        rw [heq] at halike
        have hseen : task.seen ≤ _ := halike.revocations ▸ hseen
        exact (h.registry halike s.claims).advance hk (fine_of_active hseen nofun nofun) hnone
      rename_i paired registry heq
      cases ht
      rw [heq] at halike hrevoked
      have hseen : task.seen ≤ _ := halike.revocations ▸ hseen
      refine (h.registry halike s.claims).advance hk (fine_of_active hseen nofun ?_) hnone
      rintro companion ⟨⟩
      rw [halike.revoked]
      exact hrevoked paired rfl
    · nomatch ht
  | abandon k =>
    obtain ⟨task, hk, ht⟩ := bind_eq_some_iff.mp ht
    have hdone : Fine s.registry { task with stage := .done } :=
      fine_of_active (h.fine hk).seen_le nofun nofun
    split at ht
    · rename_i authentication hstage
      cases ht
      exact h.advance hk hdone (by rw [hstage]; rfl)
    · rename_i claim hstage
      cases ht
      exact h.advance hk hdone (by rw [hstage]; rfl)
    · rename_i paired hstage
      cases ht
      exact h.advance hk hdone (by rw [hstage]; rfl)
    · nomatch ht
  | register k =>
    obtain ⟨task, hk, ht⟩ := bind_eq_some_iff.mp ht
    split at ht
    · rename_i paired hstage
      cases ht
      exact h.register hk hstage
    · nomatch ht
  | changed k =>
    obtain ⟨task, hk, ht⟩ := bind_eq_some_iff.mp ht
    have hfine := h.fine hk
    split at ht
    · rename_i paired hstage
      split at ht
      · cases ht
        refine h.stay hk ⟨Nat.le_refl _, nofun, ?_⟩ (by rw [hstage]; rfl)
        rintro companion ⟨⟩ hrevoked
        exact ⟨(hfine.told paired (by rw [hstage]; rfl) hrevoked).1, trivial⟩
      · nomatch ht
    · nomatch ht
  | borrow k =>
    obtain ⟨task, hk, ht⟩ := bind_eq_some_iff.mp ht
    have hfine := h.fine hk
    split at ht
    · rename_i paired hstage
      split at ht
      · cases ht
        exact h.stay hk (fine_of_active hfine.seen_le nofun nofun) (by rw [hstage]; rfl)
      -- a task whose companion is revoked finds its name
      rename_i hvalue
      cases ht
      refine h.stay hk ⟨hfine.seen_le, nofun, ?_⟩ (by rw [hstage]; rfl)
      rintro companion ⟨⟩ hrevoked
      exact absurd (hfine.told paired (by rw [hstage]; rfl) hrevoked).1 hvalue
    · nomatch ht
  | leave k =>
    obtain ⟨task, hk, ht⟩ := bind_eq_some_iff.mp ht
    split at ht
    · rename_i paired hstage
      cases ht
      exact h.stay hk (fine_of_active (h.fine hk).seen_le nofun nofun)
        (by rw [hstage]; rfl)
    · nomatch ht
  | unregister k =>
    obtain ⟨task, hk, ht⟩ := bind_eq_some_iff.mp ht
    split at ht
    · rename_i paired hstage
      cases ht
      exact h.unregister hk hstage
    · nomatch ht
  | revoke companion_id =>
    cases ht
    exact h.revoke hok

/-- **No connection of a revoked companion.** In every run whose revocations come in time, when
every task has handled what it was told, no session belongs to a revoked companion. -/
theorem revoked_disconnected (h : Reachable (· = {}) (step sha256) Timely s) (hquiet : Quiet s) :
    ∀ session ∈ s.sessions, s.registry.is_revoked session.companion_id = false := by
  have hinv : Inv s := by
    refine Reachable.invariant (I := Inv) ?_ (fun _ _ _ => Inv.step) h
    rintro s rfl
    exact ⟨nofun, nodup_nil, nofun⟩
  intro session hsession
  obtain ⟨task, htask, hserves⟩ := hinv.sessions session hsession
  have hmem := mem_of_getElem? htask
  have hfine := hinv.tasks task hmem
  have hhandled := hquiet task hmem
  by_contra hrevoked
  rw [Bool.not_eq_false] at hrevoked
  obtain ⟨stage, seen⟩ := task
  cases stage with
  | serving companion =>
    -- it would have been told, and not looked yet
    have hsame : companion.companion_id = session.companion_id :=
      congrArg PairedCompanion.companion_id (some.inj hserves)
    rw [← hsame] at hrevoked
    have htold : s.registry.revocations.has_changed seen = true :=
      (hfine.told companion rfl hrevoked).2
    rw [handled, htold] at hhandled
    nomatch hhandled
  | notified | closing => nomatch hhandled
  | _ => nomatch hserves

/-! ### Companions that are not told -/

/-- A companion pairs with a code, and its connection is registered by task `k`. -/
def pairs (k : ℕ) (code : String) (companion : CompanionId) (profile : ProfileId) (key : Digest) :
    List Action :=
  [.issue_pairing_code code 0 100, .upgrade code 1, .serve k,
    .complete_pairing k (some ⟨1, code, companion, profile⟩) 2 key, .register k]

/-- Two companions are revoked before the task of the first looks. -/
def burst : List Action :=
  pairs 0 "a" 1 11 5 ++ pairs 1 "b" 2 12 6 ++
    [.revoke 1, .revoke 2, .changed 0, .borrow 0, .changed 1, .borrow 1, .unregister 1]

/-- A companion is revoked when it has authenticated again and does not listen yet. -/
def gap : List Action :=
  pairs 0 "a" 1 11 5 ++ [.leave 0, .unregister 0, .upgrade "again" 3, .revoke 1, .serve 1, .register 1]

/-- The server after some actions. -/
def after (ok : Server → Action → Prop) [∀ s a, Decidable (ok s a)] (actions : List Action) :
    Server :=
  (run (orderly (step String.length) ok) {} actions).getD {}

theorem reachable_after {ok : Server → Action → Prop} [∀ s a, Decidable (ok s a)]
    {actions : List Action}
    (hrun : (run (orderly (step String.length) ok) {} actions).isSome = true) :
    Reachable (· = {}) (step String.length) ok (after ok actions) :=
  reachable_of_isSome_run (.start rfl) hrun

/-- **A revoked companion stays connected**, because another was revoked before its task looked, or
because it was revoked between its authentication and its subscription. -/
theorem revoked_connected :
    (Reachable (· = {}) (step String.length) (fun _ _ => True) (after (fun _ _ => True) burst) ∧
      Quiet (after (fun _ _ => True) burst) ∧
      ∃ session ∈ (after (fun _ _ => True) burst).sessions,
        (after (fun _ _ => True) burst).registry.is_revoked session.companion_id = true) ∧
    Reachable (· = {}) (step String.length) (fun _ _ => True) (after (fun _ _ => True) gap) ∧
      Quiet (after (fun _ _ => True) gap) ∧
      ∃ session ∈ (after (fun _ _ => True) gap).sessions,
        (after (fun _ _ => True) gap).registry.is_revoked session.companion_id = true := by
  refine ⟨⟨reachable_after ?_, ?_, ?_⟩, reachable_after ?_, ?_, ?_⟩
  · decide +kernel
  · decide +kernel
  · decide +kernel
  · decide +kernel
  · decide +kernel
  · decide +kernel

instance (s : Server) (action : Action) : Decidable (Timely s action) := by
  cases action with
  | revoke id => exact inferInstanceAs (Decidable (_ ∧ _))
  | _ => exact isTrue trivial

/-- Three companions, of which one is revoked when another one has gone. -/
def apart : List Action :=
  pairs 0 "a" 1 11 5 ++ pairs 1 "b" 2 12 6 ++ pairs 2 "c" 3 13 7 ++
    [.revoke 1, .changed 0, .borrow 0, .changed 1, .borrow 1, .unregister 0, .revoke 2, .changed 1,
      .borrow 1, .unregister 1, .changed 2, .borrow 2]

/-- Then only the third is left. -/
theorem revoked_apart_disconnected :
    Quiet (after Timely apart) ∧ (after Timely apart).sessions = [⟨13, 2, 3⟩] ∧
      ∀ session ∈ (after Timely apart).sessions,
        (after Timely apart).registry.is_revoked session.companion_id = false := by
  have hquiet : Quiet (after Timely apart) := by decide +kernel
  refine ⟨hquiet, by decide +kernel, ?_⟩
  exact revoked_disconnected (reachable_after (by decide +kernel)) hquiet

end BobbyBrowser.Companions
