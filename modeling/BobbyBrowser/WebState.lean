/-
The cache validators of a browser worker and the commits that feed them
(`worker-pool/src/chromium/web_state.rs`).

A worker keeps a version and a validator for each URL it has seen: a map, the
order in which its keys came, and the bytes both hold. The arithmetic is that of
`usize`: a sum or difference out of range is a panic like a failed `expect`, and
the results below say that the code returns. What a commit does before it takes
the lock, the conversion of its cookies and the browser's answer are arbitrary.
-/
import BobbyBrowser.Jsonl
import BobbyBrowser.Keyed
import BobbyBrowser.Outcomes
import BobbyBrowser.Texts

set_option autoImplicit false

namespace BobbyBrowser.WebState

open Jsonl (checked_succ)
open Keyed hiding insert
open List hiding insert
open Outcomes Texts

/-! ## The cache -/

/-- What a panic says. -/
abbrev Panic := String

abbrev usize_max : ℕ := 2 ^ 64 - 1

def add (a b : ℕ) : Except Panic ℕ :=
  if a + b ≤ usize_max then .ok (a + b) else .error "attempt to add with overflow"

def sub (a b : ℕ) : Except Panic ℕ :=
  if b ≤ a then .ok (a - b) else .error "attempt to subtract with overflow"

def MAX_CACHE_VALIDATORS : ℕ := 256

def MAX_CACHE_VALIDATOR_BYTES : ℕ := 1024 * 1024

/-- A `String`: its text, and the bytes allocated for it. -/
structure Owned where
  text : Text
  capacity : ℕ

/-- A URL and the validator kept for it. -/
abbrev Validator := Text × Owned

structure ValidatorCache where
  entries : List Validator := []
  insertion_order : List Text := []
  bytes : ℕ := 0

/-- The eviction loop of `extend`: each round takes a key off the order. -/
def evict (entries : List Validator) (order : List Text) (bytes : ℕ) :
    Except Panic ValidatorCache :=
  if MAX_CACHE_VALIDATORS < entries.length ∨ MAX_CACHE_VALIDATOR_BYTES < bytes then
    match order with
    | [] => .error "validator order"
    | key :: order =>
      match get Prod.fst key entries with
      | none => .error "validator entry"
      | some (_, value) => do
        let held ← add (len key) value.capacity
        evict (remove Prod.fst key entries) order (← sub bytes held)
  else .ok ⟨entries, order, bytes⟩

/-- One round of `extend`. -/
def ValidatorCache.put (cache : ValidatorCache) (validator : Validator) :
    Except Panic ValidatorCache :=
  let (key, value) := validator
  let bytes := min (len key + value.capacity) usize_max
  let entries := Keyed.insert Prod.fst validator cache.entries
  if MAX_CACHE_VALIDATOR_BYTES < bytes then .ok cache
  else
    match get Prod.fst key cache.entries with
    | some (_, previous) => do
      let rest ← sub cache.bytes previous.capacity
      evict entries cache.insertion_order (← add rest value.capacity)
    | none => do
      evict entries (cache.insertion_order ++ [key]) (← add cache.bytes bytes)

def ValidatorCache.extend (cache : ValidatorCache) (validators : List Validator) :
    Except Panic ValidatorCache :=
  validators.foldlM ValidatorCache.put cache

/-! ## Commits -/

structure HttpBridgeState where
  version : ℕ := 0
  cache_validators : ValidatorCache := {}

def driver_error_is_retryable (code : ErrorCode) : Bool :=
  code ∉ [.invalid_request, .verification_failed, .target_not_found, .target_ambiguous, .not_found,
    .policy_denied, .frame_not_found]

def driver_error (code : ErrorCode) (error : String) : CommandError :=
  ⟨code, error, .driver, driver_error_is_retryable code⟩

def http_state_conflict (expected actual : ℕ) : CommandError :=
  ⟨.http_state_conflict,
    s!"HTTP state version conflict: expected {expected}, current {actual}", .driver, false⟩

/-- What a call answers, if it is not dropped while it waits. -/
abbrev Answer := Option (Except CommandError Unit)

/-- A call of `commit_http_state`: how the checks before the lock end, what becomes of the cookies
if there are any, and what the browser answers. -/
structure Commit where
  checked : Except CommandError Unit
  expected_version : ℕ
  cookies : Option (Except CommandError Unit)
  application : Answer
  cache_validators : List Validator

section

variable (state : HttpBridgeState) (next_version : ℕ) (validators : List Validator)

def finish_state_commit : Except Panic HttpBridgeState := do
  .ok ⟨next_version, ← state.cache_validators.extend validators⟩

def apply_state_commit : Answer → Except Panic (Answer × HttpBridgeState)
  | some (.ok ()) => do .ok (some (.ok ()), ← finish_state_commit state next_version validators)
  | answer => .ok (answer, state)

def commit_http_state (commit : Commit) : Except Panic (Answer × HttpBridgeState) :=
  match commit.checked with
  | .error error => .ok (some (.error error), state)
  | .ok () =>
    if state.version ≠ commit.expected_version then
      .ok (some (.error (http_state_conflict commit.expected_version state.version)), state)
    else
      match checked_succ state.version with
      | none =>
        .ok (some (.error (driver_error .browser_command_failed "HTTP state version exhausted")),
          state)
      | some next_version =>
        match commit.cookies with
        | none => apply_state_commit state next_version commit.cache_validators (some (.ok ()))
        | some (.error error) => .ok (some (.error error), state)
        | some (.ok ()) =>
          apply_state_commit state next_version commit.cache_validators commit.application

def commit_all (commits : List Commit) : Except Panic HttpBridgeState :=
  commits.foldlM (fun state commit => Prod.snd <$> commit_http_state state commit) state

end

/-! ## The two indexes and the total -/

/-- The bytes an entry holds. -/
def held (entry : Validator) : ℕ := len entry.1 + entry.2.capacity

/-- The order lists the keys of the entries, each once, and the total is that of the entries. -/
structure Indexed (cache : ValidatorCache) : Prop where
  once : cache.insertion_order.Nodup
  listed : cache.insertion_order.Perm (cache.entries.map Prod.fst)
  total : cache.bytes = (cache.entries.map held).sum

structure Sound (cache : ValidatorCache) : Prop extends Indexed cache where
  count : cache.entries.length ≤ MAX_CACHE_VALIDATORS
  size : cache.bytes ≤ MAX_CACHE_VALIDATOR_BYTES

variable {entries : List Validator} {order : List Text} {bytes : ℕ} {cache : ValidatorCache}

theorem Indexed.unique (h : Indexed cache) : Unique Prod.fst cache.entries :=
  h.listed.nodup_iff.mp h.once

theorem Indexed.total_of_get {entry : Validator} {key : Text} (h : Indexed cache)
    (hget : get Prod.fst key cache.entries = some entry) :
    cache.bytes = held entry + ((remove Prod.fst key cache.entries).map held).sum := by
  rw [h.total, ((perm_cons_remove h.unique hget).map held).sum_nat, map_cons, sum_cons]

/-- Taking the oldest key leaves the rest in step, and its entry held what is taken off. -/
theorem Indexed.pop {key : Text} (h : Indexed ⟨entries, key :: order, bytes⟩) :
    ∃ value, get Prod.fst key entries = some (key, value) ∧ held (key, value) ≤ bytes ∧
      Indexed ⟨remove Prod.fst key entries, order, bytes - held (key, value)⟩ := by
  obtain ⟨⟨key', value⟩, hget⟩ := Option.isSome_iff_exists.mp
    (get_isSome_iff.mpr (h.listed.subset mem_cons_self))
  obtain rfl : key' = key := key_of_get hget
  have htotal := h.total_of_get hget
  dsimp only at htotal
  refine ⟨value, hget, by omega, (nodup_cons.mp h.once).2, ?_, by dsimp only; omega⟩
  exact (h.listed.trans ((perm_cons_remove h.unique hget).map Prod.fst)).cons_inv

/-- A new value for a key that is there. -/
theorem Indexed.replace {entry validator : Validator} (h : Indexed cache)
    (hget : get Prod.fst validator.1 cache.entries = some entry) :
    entry.2.capacity ≤ cache.bytes ∧
      Indexed ⟨Keyed.insert Prod.fst validator cache.entries, cache.insertion_order,
        cache.bytes - entry.2.capacity + validator.2.capacity⟩ := by
  have hkey : entry.1 = validator.1 := key_of_get hget
  have htotal := h.total_of_get hget
  have hnew : (Keyed.insert Prod.fst validator cache.entries).Perm
      (validator :: remove Prod.fst validator.1 cache.entries) := perm_append_singleton _ _
  rw [held, hkey] at htotal
  refine ⟨by omega, h.once, ?_, ?_⟩
  · refine (h.listed.trans ((perm_cons_remove h.unique hget).map _)).trans ?_
    rw [map_cons, hkey]
    exact (hnew.map Prod.fst).symm
  · rw [(hnew.map held).sum_nat, map_cons, sum_cons, held]
    dsimp only
    omega

/-- A new validator comes last in the order of insertion. -/
theorem Indexed.push {validator : Validator} (h : Indexed cache)
    (hnone : get Prod.fst validator.1 cache.entries = none) :
    Indexed ⟨Keyed.insert Prod.fst validator cache.entries, cache.insertion_order ++ [validator.1],
      cache.bytes + held validator⟩ := by
  have hfresh := get_eq_none_iff_notMem.mp hnone
  have hnew : validator.1 ∉ cache.insertion_order := fun hmem => hfresh (h.listed.subset hmem)
  rw [Keyed.insert, remove_of_notMem hfresh]
  refine ⟨?_, ?_, ?_⟩
  · exact (perm_append_singleton _ _).nodup_iff.mpr (nodup_cons.mpr ⟨hnew, h.once⟩)
  · rw [map_append]
    exact h.listed.append_right _
  · rw [map_append, sum_append, ← h.total, map_singleton, sum_singleton]

/-- **The eviction loop returns**, and what it leaves is within the bounds. -/
theorem evict_spec (h : Indexed ⟨entries, order, bytes⟩) (hmax : bytes ≤ usize_max) :
    ∃ cache, evict entries order bytes = .ok cache ∧ Sound cache := by
  induction order generalizing entries bytes with
  | nil =>
    obtain rfl : entries = [] := map_eq_nil_iff.mp h.listed.nil_eq.symm
    obtain rfl : bytes = 0 := h.total
    exact ⟨{}, rfl, h, by decide, by decide⟩
  | cons key order ih =>
    rw [evict]
    by_cases hover : MAX_CACHE_VALIDATORS < entries.length ∨ MAX_CACHE_VALIDATOR_BYTES < bytes
    · obtain ⟨value, hget, hle, hrest⟩ := h.pop
      rw [if_pos hover, hget]
      have hadd : add (len key) value.capacity = .ok (held (key, value)) :=
        if_pos (hle.trans hmax)
      have hsub : sub bytes (held (key, value)) = .ok (bytes - held (key, value)) := if_pos hle
      obtain ⟨cache, hcache, hsound⟩ := ih hrest (by omega)
      refine ⟨cache, ?_, hsound⟩
      dsimp only
      rw [hadd, ← hcache]
      exact congrArg (· >>= _) hsub
    · rw [if_neg hover]
      exact ⟨_, rfl, h, by dsimp only; omega, by dsimp only; omega⟩

/-- **Putting a validator** succeeds, and keeps the cache within its bounds. -/
theorem Sound.put (h : Sound cache) (validator : Validator) :
    ∃ next, cache.put validator = .ok next ∧ Sound next := by
  -- every total below stays under twice the bound, far from the end of `usize`
  have hbound : MAX_CACHE_VALIDATOR_BYTES = 1024 * 1024 := rfl
  have hend : usize_max = 2 ^ 64 - 1 := rfl
  have hheld : held validator = len validator.1 + validator.2.capacity := rfl
  have hsize := h.size
  unfold ValidatorCache.put
  dsimp only
  rw [← hheld]
  by_cases hbig : MAX_CACHE_VALIDATOR_BYTES < min (held validator) usize_max
  · exact ⟨cache, if_pos hbig, h⟩
  rw [if_neg hbig, min_eq_left (by omega)]
  match hget : get Prod.fst validator.1 cache.entries with
  | some (key, previous) =>
    obtain ⟨hle, hindexed⟩ := h.replace hget
    have hroom : cache.bytes - previous.capacity + validator.2.capacity ≤ usize_max := by omega
    have hadd : add (cache.bytes - previous.capacity) validator.2.capacity = .ok _ :=
      if_pos hroom
    obtain ⟨next, hnext, hsound⟩ := evict_spec hindexed hroom
    refine ⟨next, ?_, hsound⟩
    dsimp only
    rw [show sub cache.bytes previous.capacity = .ok _ from if_pos hle]
    exact (congrArg (· >>= _) hadd).trans hnext
  | none =>
    have hroom : cache.bytes + held validator ≤ usize_max := by omega
    obtain ⟨next, hnext, hsound⟩ := evict_spec (h.push hget) hroom
    refine ⟨next, ?_, hsound⟩
    dsimp only
    rw [show add cache.bytes (held validator) = .ok _ from if_pos hroom]
    exact hnext

theorem Sound.extend (h : Sound cache) (validators : List Validator) :
    ∃ next, cache.extend validators = .ok next ∧ Sound next := by
  induction validators generalizing cache with
  | nil => exact ⟨cache, rfl, h⟩
  | cons validator validators ih =>
    obtain ⟨next, hnext, hsound⟩ := h.put validator
    rw [ValidatorCache.extend, foldlM_cons, hnext]
    exact ih hsound

variable {state : HttpBridgeState}

/-- A commit against another version, or one whose cookies the browser did not take. -/
def Fails (state : HttpBridgeState) (commit : Commit) : Prop :=
  state.version ≠ commit.expected_version ∨
    commit.cookies.isSome ∧ commit.application ≠ some (.ok ())

/-- A commit changes nothing, or it does not fail and is finished under a new version. -/
theorem commit_cases (state : HttpBridgeState) (commit : Commit) :
    (∃ answer, commit_http_state state commit = .ok (answer, state)) ∨
      ¬ Fails state commit ∧ ∃ next_version, commit_http_state state commit =
        apply_state_commit state next_version commit.cache_validators (some (.ok ())) := by
  unfold commit_http_state
  split
  · exact .inl ⟨_, rfl⟩
  by_cases hversion : state.version ≠ commit.expected_version
  · rw [if_pos hversion]
    exact .inl ⟨_, rfl⟩
  rw [if_neg hversion]
  split
  · exact .inl ⟨_, rfl⟩
  split
  · rename_i hnone
    refine .inr ⟨?_, _, rfl⟩
    rw [Fails, hnone]
    exact fun hfails => hfails.elim hversion nofun
  · exact .inl ⟨_, rfl⟩
  by_cases hanswer : commit.application = some (.ok ())
  · rw [hanswer]
    exact .inr ⟨fun hfails => hfails.elim hversion (·.2 hanswer), _, rfl⟩
  · unfold apply_state_commit
    split
    · exact absurd ‹_› hanswer
    · exact .inl ⟨_, rfl⟩

/-- A commit succeeds or is refused, and the cache is sound either way. -/
theorem Sound.commit (h : Sound state.cache_validators) (commit : Commit) :
    ∃ result, commit_http_state state commit = .ok result ∧ Sound result.2.cache_validators := by
  obtain ⟨answer, hanswer⟩ | ⟨-, next_version, happly⟩ := commit_cases state commit
  · exact ⟨_, hanswer, h⟩
  · obtain ⟨cache, hcache, hsound⟩ := h.extend commit.cache_validators
    refine ⟨(some (.ok ()), ⟨next_version, cache⟩), ?_, hsound⟩
    rw [happly, apply_state_commit, finish_state_commit, hcache]
    rfl

theorem Sound.commit_all (h : Sound state.cache_validators) (commits : List Commit) :
    ∃ next, commit_all state commits = .ok next ∧ Sound next.cache_validators := by
  induction commits generalizing state with
  | nil => exact ⟨state, rfl, h⟩
  | cons commit commits ih =>
    obtain ⟨result, hresult, hsound⟩ := h.commit commit
    rw [WebState.commit_all, foldlM_cons, hresult]
    exact ih hsound

/-- **Every sequence of commits** to a new worker returns, with the cache in step and within its
bounds, and a commit that fails after it changes nothing. -/
theorem validator_cache_kept (commits : List Commit) :
    ∃ state, commit_all {} commits = .ok state ∧ Sound state.cache_validators ∧
      ∀ commit, Fails state commit →
        ∃ answer, commit_http_state state commit = .ok (answer, state) := by
  have hempty : Sound (HttpBridgeState.cache_validators {}) :=
    ⟨⟨nodup_nil, .nil, rfl⟩, Nat.zero_le _, Nat.zero_le _⟩
  obtain ⟨state, hstate, hsound⟩ := hempty.commit_all commits
  refine ⟨state, hstate, hsound, fun commit hfails => ?_⟩
  exact (commit_cases state commit).resolve_right fun hfinished => hfinished.1 hfails

end BobbyBrowser.WebState
