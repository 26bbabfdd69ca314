/-
The window of the vision prompt (`crates/intent-engine/src/engine.rs`).

A step that does not find its target shows a vision model those rows of the page
that come nearest, and the model answers with the index of one. The answer
becomes a role, a name and an ordinal, the number of rows above that look the
same, which the resolver looks for in the page. Sorting and cutting the window
keep rows that look the same in the order of the page, so the ordinal counts the
candidates of that role and name before the one shown, hidden ones included. The
resolver counts visible ones only, and takes more names for the same.
-/
import BobbyBrowser.RoleTargets

set_option autoImplicit false

namespace BobbyBrowser.VisionWindow

open List hiding contains
open Outcomes Resolver RoleTargets Targets Texts

/-! ## The rows of the window -/

/-- The evidence of a candidate, with the index of the candidate, which nothing reads. -/
structure Row extends CandidateEvidence where
  index : ℕ

/-- `char::is_alphanumeric` and `str::to_lowercase`. -/
structure Unicode where
  is_alphanumeric : Char → Bool
  to_lowercase : Text → Text

inductive RecordSource
  | observed | vision_promoted
  deriving DecidableEq

structure IntentStats where
  success_count : ℕ
  failure_count : ℕ
  last_verified_day : Option ℕ
  source : Option RecordSource

structure ControlContext where
  role : Text
  accessible_name : Text
  intents : List (Text × IntentStats)

/-- A stuck step, as far as its window depends on it. -/
structure Escalation where
  unicode : Unicode
  purpose : Option Text
  intent_kind : Text
  /-- The controls of the forms the context store knows of the page, if it knows the page. -/
  page : Option (List ControlContext)
  /-- How many rows are taken by on-screen controls. -/
  screen : ℕ

def VISION_WINDOW_ROLES : List Text :=
  ["button", "link", "textbox", "spinbutton", "combobox", "listbox", "checkbox", "radio", "tab",
    "menuitem", "searchbox", "switch"].map String.toList

def CONTEXT_RANK_CANDIDATE_LIMIT : ℕ := 10

def STOPWORDS : List Text :=
  ["the", "and", "for", "with", "that", "this", "into", "your", "now", "off", "out",
    "put"].map String.toList

def vision_window_eligible (role name : Option Text) : Bool :=
  name.isSome && role.any fun role => VISION_WINDOW_ROLES.contains role

/-- In the order of the fields: net successes, successes, the last day of a verification, and
whether the record was observed. -/
abbrev PersistedCandidateRank := ℕ ×ₗ ℕ ×ₗ ℕ ×ₗ Bool

/-- The rank of a control that has served the intent, unless it is stale. -/
def persisted_rank (intent_kind : Text) (control : ControlContext) :
    Option PersistedCandidateRank := do
  let stats ← control.intents.lookup intent_kind
  let day ← stats.last_verified_day
  if stats.success_count ≤ stats.failure_count then none
  else some (toLex (stats.success_count - stats.failure_count,
    toLex (stats.success_count, toLex (day, stats.source == some .observed))))

def same_identity (control : ControlContext) (role name : Option Text) : Bool :=
  (role.any fun role => eq_ignore_ascii_case (trim control.role) (trim role))
    && name.any fun name => eq_ignore_ascii_case (trim control.accessible_name) (trim name)

/-- The evidence `ranked_near_miss_window` has of a candidate. -/
def near_miss_row (candidate : Candidate × ℕ) : Row where
  role := candidate.1.role
  name := candidate.1.name
  score := 0
  reasons := [if candidate.1.state.visible then "noMatch".toList else "hidden".toList]
  index := candidate.2

namespace Escalation

variable (e : Escalation)

def tokens : List Text :=
  (e.purpose.map fun purpose =>
    ((purpose.splitOnP fun c => !e.unicode.is_alphanumeric c).map e.unicode.to_lowercase).filter
      fun token => 2 < len token && !STOPWORDS.contains token).getD []

/-- How many tokens of the purpose a row shares. -/
def overlap (role name : Option Text) : ℕ :=
  let haystack := e.unicode.to_lowercase (role.getD [] ++ ' ' :: name.getD [])
  e.tokens.countP fun token => contains haystack token

def near_miss_order (rows : List Row) : List Row :=
  Ranking.ranked (fun row => OrderDual.toDual (e.overlap row.role row.name))
    (rows.filter fun row => vision_window_eligible row.role row.name)

def ranked_near_miss_window (candidates : List Candidate) : List Row :=
  (e.near_miss_order (candidates.zipIdx.map near_miss_row)).take CONTEXT_RANK_CANDIDATE_LIMIT

/-- The best rank of the controls a row may be. -/
def rank (role name : Option Text) : Option PersistedCandidateRank :=
  (((e.page.getD []).filter (same_identity · role name)).filterMap
    (persisted_rank e.intent_kind)).max?

/-- The only row of the best rank moves to the front. -/
def rank_candidates_from_context (candidates : List Row) : List Row :=
  match (candidates.filterMap fun row => e.rank row.role row.name).max? with
  | none => candidates
  | some best_rank =>
    match candidates.filter fun row => e.rank row.role row.name == some best_rank with
    | [best] => best :: candidates.filter fun row => e.rank row.role row.name != some best_rank
    | _ => candidates

/-- The `prompt_candidates` of `escalate_with_vision`. -/
def prompt_candidates (candidates : List Candidate) : List Row :=
  ((e.rank_candidates_from_context (e.ranked_near_miss_window candidates)).filter fun row =>
    vision_window_eligible row.role row.name).take (5 - e.screen)

end Escalation

/-- A row with exactly this role and name. -/
def same_row (role name : Option Text) (row : Row) : Bool := row.role == role && row.name == name

def prompt_candidate_target (action : String) (index : ℕ) (prompt_candidates : List Row) :
    Except CommandError TargetSpec :=
  let failed (what : String) : CommandError :=
    ⟨.vision_assist_failed, action ++ " index " ++ toString index ++ what, .page, false⟩
  match prompt_candidates[index]? with
  | none =>
    .error (failed (" out of range (" ++ toString prompt_candidates.length ++ " candidates)"))
  | some candidate =>
    match candidate.role, candidate.name with
    | none, _ => .error (failed " has no role")
    | some _, none => .error (failed " has no name")
    | some role, some name =>
      .ok (role_target role (some name)
        (some ((prompt_candidates.take index).countP (same_row (some role) (some name)))))

/-! ## Rows that look the same stay in order -/

section

variable {e : Escalation} {role name : Option Text} {candidates : List Candidate} {index : ℕ}
  {row : Row}

theorem same_row_iff : same_row role name row = true ↔ row.role = role ∧ row.name = name := by
  simp [same_row]

/-- What depends on the look of a row is the same for rows that look the same. -/
theorem same_row_and (f : Option Text → Option Text → Bool) (row : Row) :
    (same_row role name row && f row.role row.name) = (same_row role name row && f role name) := by
  rcases hsame : same_row role name row with _ | _
  · rfl
  · rw [(same_row_iff.mp hsame).1, (same_row_iff.mp hsame).2]

/-- A row moves only if no other looks the same. -/
theorem filter_rank_candidates (rows : List Row) :
    (e.rank_candidates_from_context rows).filter (same_row role name)
      = rows.filter (same_row role name) := by
  unfold Escalation.rank_candidates_from_context
  split
  · rfl
  rename_i best_rank _
  split
  case h_2 => rfl
  rename_i best hbest
  rw [← singleton_append, ← hbest, filter_append, filter_filter, filter_filter]
  -- either all rows of this look have the best rank or none has
  simp only [same_row_and fun role name => e.rank role name == some best_rank,
    same_row_and fun role name => e.rank role name != some best_rank]
  rcases h : e.rank role name == some best_rank with _ | _
  · simp [bne, h]
  · simp [bne, h]

/-- Rows of one look are shown in the order of the page. -/
theorem filter_prompt_candidates (h : vision_window_eligible role name) :
    (e.prompt_candidates candidates).filter (same_row role name)
      <+: (candidates.zipIdx.map near_miss_row).filter (same_row role name) := by
  have heligible (rows : List Row) :
      (rows.filter fun row => vision_window_eligible row.role row.name).filter (same_row role name)
        = rows.filter (same_row role name) := by
    rw [filter_filter]
    simp only [same_row_and vision_window_eligible, h, Bool.and_true]
  refine ((List.take_prefix _ _).filter _).trans ?_
  rw [heligible, filter_rank_candidates]
  refine ((List.take_prefix _ _).filter _).trans ?_
  unfold Escalation.near_miss_order
  rw [Ranking.filter_ranked, heligible]
  intro a b ha hb
  rw [same_row_iff] at ha hb
  rw [ha.1, ha.2, hb.1, hb.2]

/-- A candidate with exactly the role and the name of another. -/
def looks_like (candidate other : Candidate) : Bool :=
  other.role == candidate.role && other.name == candidate.name

/-- **What the ordinal counts**: the candidates before the one shown that look like it. -/
theorem countP_prompt_candidates (h : (e.prompt_candidates candidates)[index]? = some row) :
    ∃ candidate, candidates[row.index]? = some candidate
      ∧ candidate.role = row.role ∧ candidate.name = row.name
      ∧ ((e.prompt_candidates candidates).take index).countP (same_row row.role row.name)
        = (candidates.take row.index).countP (looks_like candidate) := by
  have heligible : vision_window_eligible row.role row.name = true :=
    (mem_filter.mp (mem_of_mem_take (mem_of_getElem? h))).2
  have hself : same_row row.role row.name row = true := same_row_iff.mpr ⟨rfl, rfl⟩
  -- the rows of this look down to this one are the first of the page
  have hfirst := ((List.take_prefix (index + 1) (e.prompt_candidates candidates)).filter _).trans
    (filter_prompt_candidates heligible)
  rw [take_add_one, h, Option.toList_some, filter_append, filter_singleton, hself,
    cond_true] at hfirst
  obtain ⟨rest, hrest⟩ := hfirst
  have hat : ((candidates.zipIdx.map near_miss_row).filter (same_row row.role row.name))[
      ((e.prompt_candidates candidates).take index).countP (same_row row.role row.name)]?
        = some row := by
    rw [← hrest, countP_eq_length_filter]
    simp
  have hordered : ((candidates.zipIdx.map near_miss_row).filter
      (same_row row.role row.name)).Pairwise (·.index < ·.index) := by
    refine Pairwise.filter _ (pairwise_map.mpr ?_)
    change candidates.zipIdx.Pairwise (·.2 < ·.2)
    rw [← pairwise_map (f := Prod.snd) (R := (· < ·)), zipIdx_map_snd]
    exact pairwise_lt_range'
  obtain ⟨hmem, hplace⟩ := (Ranking.getElem?_eq_some_iff_place hordered).mp hat
  obtain ⟨⟨candidate, place⟩, hcandidate, rfl⟩ := mem_map.mp (mem_filter.mp hmem).1
  refine ⟨candidate, mem_zipIdx_iff_getElem?.mp hcandidate, rfl, rfl, ?_⟩
  rw [← hplace, Ranking.place, countP_filter, countP_map, ← countP_zipIdx_lt _ _ 0]
  simp only [Nat.zero_add, Bool.and_comm (looks_like candidate _)]
  rfl

end

/-! ## Following an answer -/

/-- The ordinal of the row leads past all candidates that answer, or the candidate is visible and as
many candidates before it look like it as the resolver prefers to it. -/
def Unshifted (candidates : List Candidate) (place : ℕ) (candidate : Candidate) : Prop :=
  let role := candidate.role.getD []
  let ordinal := (candidates.take place).countP (looks_like candidate)
  candidates.countP (answers role candidate.name) ≤ ordinal
    ∨ eligible {} candidate = true
      ∧ (candidates.take place).countP (rivals role candidate.name) = ordinal

/-- A step without a purpose on a page the context store does not know. -/
def plain_step : Escalation := ⟨⟨Char.isAlphanum, to_ascii_lowercase⟩, none, [], none, 0⟩

def hidden_field : Candidate :=
  { control "bobby-1-1" "textbox" "Email" with state := ⟨true, false, true⟩ }

/-- A field that is hidden, and the one that is shown in its place. -/
def replaced_field : Census where
  candidates := [hidden_field, control "bobby-1-2" "textbox" "Email"]
  distinct := by decide +kernel

end BobbyBrowser.VisionWindow
