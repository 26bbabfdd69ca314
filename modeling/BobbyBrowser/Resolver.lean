/-
Which element of a page a target names (`crates/dom-engine/src/resolver.rs`,
`candidate.rs` and the target predicates of `lib.rs`).

A target is a list of criteria. Every candidate that meets all of them is
scored, the best score comes first and the order of the page breaks ties. A
target with an ordinal takes the candidate at that place; one without takes the
first, if it beats the second. The regular expression engine is a parameter:
what the resolver asks of it is to compile a pattern and to match a text.
-/
import BobbyBrowser.Keyed
import BobbyBrowser.Ranking
import BobbyBrowser.Texts
import Mathlib.Data.Prod.Lex

set_option autoImplicit false

namespace BobbyBrowser.Resolver

open Option
open List hiding getElem?_eq_some_iff
open Texts
open Ranking (ranked)

/-! ## Targets and candidates -/

theorem distinct_nil : Keyed.Unique Prod.fst ([] : List (Text × Text)) := List.nodup_nil

/-- A `BTreeMap<String, String>`: no name is listed twice. -/
structure Attributes where
  entries : List (Text × Text) := []
  distinct : Keyed.Unique Prod.fst entries := by first | exact distinct_nil | decide
  deriving DecidableEq

namespace Attributes

variable (attributes : Attributes)

def get (name : Text) : Option Text := (Keyed.get Prod.fst name attributes.entries).map Prod.snd

def contains_key (name : Text) : Bool := (attributes.get name).isSome

/-- `iter().filter(..).collect()` on names. -/
def filter (keep : Text → Bool) : Attributes where
  entries := attributes.entries.filter fun entry => keep entry.1
  distinct := attributes.distinct.filter _

/-- `[(name, value)].into_iter().collect()`. -/
def single (name value : Text) : Attributes where
  entries := [(name, value)]
  distinct := List.nodup_singleton name

theorem get_of_mem {attributes : Attributes} {name value : Text}
    (h : (name, value) ∈ attributes.entries) : attributes.get name = some value := by
  unfold get
  rw [attributes.distinct.get_of_mem h rfl, map_some]

end Attributes

inductive TextMatch
  | exact (value : Text)
  | contains (value : Text)
  | regex (pattern : Text)

structure TargetSpec where
  css : Option Text := none
  test_id : Option Text := none
  role : Option Text := none
  accessible_name : Option Text := none
  label : Option Text := none
  text : Option TextMatch := none
  attributes : Attributes := {}
  frame_path : List TargetSpec := []
  shadow_path : List TargetSpec := []
  ordinal : Option ℕ := none
  allow_best_match : Bool := false

structure CandidateState where
  attached : Bool
  visible : Bool
  enabled : Bool
  deriving DecidableEq

/-- `Candidate`: an element as a gather found it. -/
structure Candidate where
  id : Text
  css : Option Text := none
  tag : Option Text := none
  test_id : Option Text := none
  role : Option Text := none
  name : Option Text := none
  label : Option Text := none
  text : Text := []
  attributes : Attributes := {}
  state : CandidateState := ⟨true, true, true⟩
  frame_path : List TargetSpec := []

structure CandidateEvidence where
  role : Option Text
  name : Option Text
  score : ℤ
  reasons : List Text
  deriving DecidableEq

/-- The candidates of a page: each element is listed under an id of its own. -/
structure Census where
  candidates : List Candidate
  distinct : Keyed.Unique Candidate.id candidates

def CONTROL_STAMP_ATTRIBUTE : Text := "data-bobby-control".toList

/-- `is_stamped_control_target`: a role, an empty name and the stamp of a form snapshot. -/
def is_stamped_control_target (target : TargetSpec) : Bool :=
  target.role.any (fun role => !(trim role).isEmpty)
    && target.accessible_name == some []
    && target.attributes.entries.length == 1
    && target.attributes.contains_key CONTROL_STAMP_ATTRIBUTE
    && target.css.isNone
    && target.test_id.isNone
    && target.label.isNone
    && target.text.isNone
    && !target.allow_best_match

/-! ## CSS selectors -/

structure SimpleCss where
  tag : Option Text := none
  id : Option Text := none
  attributes : List (Text × Text) := []

/-- The double and the single quote. -/
def QUOTES : List Char := [Char.ofNat 34, Char.ofNat 39]

/-- The characters outside quotes; `open_quote` is the quote that is still open. -/
def quoted_regions_stripped (open_quote : Option Char) : Text → Text
  | [] => []
  | character :: chars =>
    match open_quote with
    | none =>
      if QUOTES.contains character then quoted_regions_stripped (some character) chars
      else character :: quoted_regions_stripped none chars
    | some quote =>
      quoted_regions_stripped (if character = quote then none else some quote) chars

def parse_attr (body : Text) : Option (Text × Text) := do
  let (name, value) ← split_once '=' body
  let name := trim name
  if name.isEmpty then none
  let value := trim value
  -- One pair of quotes of the same kind around the value is dropped.
  let quoted := QUOTES.any fun quote =>
    value.head? == some quote && value.getLast? == some quote && decide (2 ≤ value.length)
  some (name, if quoted then value.tail.dropLast else value)

/-- The loop of `parse_simple_css`; each round takes at least one character. -/
def parse_simple_css_loop : ℕ → SimpleCss → Text → Option SimpleCss
  | _, parsed, [] => some parsed
  | 0, _, _ :: _ => none
  | fuel + 1, parsed, character :: stripped =>
    if character = '#' then
      let id := stripped.takeWhile fun c => c ≠ '[' && c ≠ '#'
      if id.isEmpty then none
      else parse_simple_css_loop fuel { parsed with id := some id } (stripped.drop id.length)
    else if character = '[' then
      match split_once ']' stripped with
      | none => none
      | some (body, rest) =>
        match parse_attr body with
        | none => none
        | some attr =>
          parse_simple_css_loop fuel
            { parsed with attributes := parsed.attributes ++ [attr] } rest
    else none

/-- `parse_simple_css`: a tag, then ids and attributes; no combinator, class or pseudo. -/
def parse_simple_css (selector : Text) : Option SimpleCss := do
  let rest := trim selector
  let unquoted := quoted_regions_stripped none rest
  if rest.isEmpty || unquoted.any is_whitespace || unquoted.any ['>', '+', '~', ':', '.'].contains
  then none
  let tag :=
    if rest.head?.any (fun c => c.isAlpha || c == '_') then
      rest.takeWhile fun c => c.isAlphanum || c == '-' || c == '_'
    else []
  let start : SimpleCss := if tag.isEmpty then {} else { tag := some (to_ascii_lowercase tag) }
  let parsed ← parse_simple_css_loop rest.length start (rest.drop tag.length)
  if parsed.tag.isNone && parsed.id.isNone && parsed.attributes.isEmpty then none
  some parsed

/-- What an attribute selector compares: `aria-label` and `title` fall back on the name. -/
def selected_attribute (candidate : Candidate) (name : Text) : Option Text :=
  if name = "aria-label".toList || name = "title".toList then
    (candidate.attributes.get name).or candidate.name
  else candidate.attributes.get name

def css_matches (wanted : Text) (candidate : Candidate) (parsed : Option SimpleCss) : Bool :=
  let wanted := trim wanted
  if wanted.isEmpty then false
  else if candidate.css == some wanted then true
  else match parsed with
    | none => false
    | some parsed =>
      let stamped := candidate.css.bind fun css =>
        if css.head? == some '#' then some css.tail else none
      parsed.tag.all (fun tag => candidate.tag.any fun actual => eq_ignore_ascii_case actual tag)
        && parsed.id.all (fun id =>
            stamped == some id || candidate.attributes.get "id".toList == some id)
        && parsed.attributes.all fun attr =>
            selected_attribute candidate attr.1 == some attr.2

/-! ## Scores -/

def REQUIRED_MARKERS : List Char := ['*', '✱', '＊', '∗']

/-- `comparable_name`: white space collapsed and a trailing required marker dropped. -/
def comparable_name (name : Text) : Text :=
  let unmarked :=
    trim_end_matches (fun c => REQUIRED_MARKERS.contains c || is_whitespace c) (collapsed name)
  if unmarked.isEmpty then collapsed name else unmarked

/-- The `is_img_alias` of `roles_match`. -/
def is_img_alias (role : Text) : Bool :=
  eq_ignore_ascii_case role "img".toList || eq_ignore_ascii_case role "image".toList

def roles_match (wanted actual : Text) : Bool :=
  eq_ignore_ascii_case wanted actual || (is_img_alias wanted && is_img_alias actual)

/-- What one criterion adds to a score, and the reasons it gives. -/
abbrev Points := ℤ × List Text

/-- A criterion of `score`: nothing if the target does not ask for it, and a rejection if the
candidate does not meet it. -/
def criterion (wanted : Option Text) (is_met : Text → Bool) (worth : ℤ) (reason : Text) :
    Option Points :=
  match wanted with
  | none => some (0, [])
  | some wanted => if is_met wanted then some (worth, [reason]) else none

/-- The `exact!` of `score`. -/
def exact_points (wanted actual : Option Text) (worth : ℤ) (reason : Text) : Option Points :=
  criterion wanted (fun wanted => actual == some wanted) worth reason

/-- The CSS criterion of `score`. -/
def css_points (target : TargetSpec) (candidate : Candidate) : Option Points :=
  criterion target.css (fun wanted => css_matches wanted candidate (parse_simple_css wanted)) 100
    "css".toList

/-- The role criterion of `score`. -/
def role_points (target : TargetSpec) (candidate : Candidate) : Option Points :=
  criterion target.role (fun wanted => candidate.role.any (roles_match wanted)) 30
    "exactRole".toList

/-- The name criterion of `score`. A stamped control's name is whatever the page derives, so it is
not compared; a name equal only without its required marker ranks below the exact one. -/
def name_points (target : TargetSpec) (candidate : Candidate) : Option Points :=
  match target.accessible_name.filter fun _ => !is_stamped_control_target target with
  | none => some (0, [])
  | some wanted =>
    let actual := candidate.name.getD []
    if comparable_name actual ≠ comparable_name wanted then none
    else if collapsed actual = collapsed wanted then some (50, ["exactAccessibleName".toList])
    else some (49, ["accessibleNameWithoutMarker".toList])

/-- The attribute criteria of `score`. -/
def attribute_points (wanted : List (Text × Text)) (candidate : Candidate) : Option Points :=
  match wanted with
  | [] => some (0, [])
  | (name, value) :: wanted =>
    if candidate.attributes.get name = some value then
      (attribute_points wanted candidate).map fun points =>
        (20 + points.1, ("attribute:".toList ++ name) :: points.2)
    else none

/-- A compiled regular expression, as far as a text is matched against it. -/
abbrev Regex := Text → Bool

/-- The text criterion of `score`. -/
def text_points (target : TargetSpec) (candidate : Candidate) (regex : Option Regex) :
    Option Points :=
  match target.text with
  | none => some (0, [])
  | some (.exact value) => if candidate.text = value then some (40, ["text".toList]) else none
  | some (.contains value) =>
    if contains candidate.text value then some (20, ["text".toList]) else none
  | some (.regex _) =>
    if regex.any fun regex => regex candidate.text then some (15, ["text".toList]) else none

def describe_frame_hop (hop : TargetSpec) : Text :=
  match hop.accessible_name.filter (fun name => !name.isEmpty), hop.css with
  | some name, _ => "inside iframe \"".toList ++ name ++ "\"".toList
  | none, some css => "inside iframe ".toList ++ css
  | none, none => "inside iframe".toList

/-- `score`: `none` when some criterion is not met. -/
def score (target : TargetSpec) (candidate : Candidate) (regex : Option Regex) :
    Option CandidateEvidence := do
  let css ← css_points target candidate
  let test_id ← exact_points target.test_id candidate.test_id 100 "exactTestId".toList
  let role ← role_points target candidate
  let name ← name_points target candidate
  let label ← exact_points target.label candidate.label 50 "exactLabel".toList
  let attributes ← attribute_points target.attributes.entries candidate
  let text ← text_points target candidate regex
  some
    { role := candidate.role
      name := candidate.name
      score := css.1 + test_id.1 + role.1 + name.1 + label.1 + attributes.1 + text.1
      reasons := css.2 ++ test_id.2 ++ role.2 ++ name.2 ++ label.2 ++ attributes.2 ++ text.2
        ++ (candidate.frame_path.getLast?.map describe_frame_hop).toList }

/-! ## Ranking and resolution -/

structure ResolutionPolicy where
  confidence_floor : ℤ := 1
  uniqueness_margin : ℤ := 1
  max_candidates : ℕ := 100
  max_regex_len : ℕ := 256
  require_visible : Bool := true

inductive ResolutionError
  | regex_too_long
  | invalid_regex (message : Text)
  | candidate_limit_exceeded (count limit : ℕ) (first_matches : Text)

inductive ResolutionDecision
  | resolved (candidate : Candidate) (evidence : CandidateEvidence) (best_match_authorized : Bool)
  | ambiguous (candidates : List CandidateEvidence)
  | not_found

/-- `Regex::new`, the compiler of the regular expression engine. -/
abbrev RegexNew := Text → Except Text Regex

/-- A scored candidate with its index in the page. -/
structure Entry where
  index : ℕ
  candidate : Candidate
  evidence : CandidateEvidence

/-- The comparison of the sort: the higher score first, then the order of the page. -/
def Entry.key (entry : Entry) : ℤ ×ₗ ℕ := toLex (-entry.evidence.score, entry.index)

/-- The regular expression of a target, compiled. -/
def compile_regex (regex_new : RegexNew) (target : TargetSpec) (policy : ResolutionPolicy) :
    Except ResolutionError (Option Regex) :=
  match target.text with
  | some (.regex pattern) =>
    if policy.max_regex_len < len pattern then .error .regex_too_long
    else match regex_new pattern with
      | .error message => .error (.invalid_regex message)
      | .ok regex => .ok (some regex)
  | _ => .ok none

/-- A candidate the policy lets a target see. -/
def eligible (policy : ResolutionPolicy) (candidate : Candidate) : Bool :=
  candidate.state.attached && (!policy.require_visible || candidate.state.visible)

/-- The entry of one candidate, if it is eligible and meets every criterion. -/
def entry_of (target : TargetSpec) (policy : ResolutionPolicy) (regex : Option Regex)
    (candidate : Candidate) (index : ℕ) : Option Entry :=
  if eligible policy candidate then
    (score target candidate regex).map fun evidence => ⟨index, candidate, evidence⟩
  else none

/-- The candidates that meet every criterion, in the order of the page. -/
def scored (target : TargetSpec) (candidates : List Candidate) (policy : ResolutionPolicy)
    (regex : Option Regex) : List Entry :=
  candidates.zipIdx.filterMap fun item => entry_of target policy regex item.1 item.2

/-- `rank_candidates`, with the index that breaks the ties still in place. -/
def rank_entries (regex_new : RegexNew) (target : TargetSpec) (candidates : List Candidate)
    (policy : ResolutionPolicy) : Except ResolutionError (List Entry) := do
  let regex ← compile_regex regex_new target policy
  .ok (ranked Entry.key (scored target candidates policy regex))

def rank_candidates (regex_new : RegexNew) (target : TargetSpec) (candidates : List Candidate)
    (policy : ResolutionPolicy) : Except ResolutionError (List (Candidate × CandidateEvidence)) :=
  (rank_entries regex_new target candidates policy).map fun ranked =>
    ranked.map fun entry => (entry.candidate, entry.evidence)

def bounded_candidate_field (value : Text) : Text :=
  if 80 < value.length then value.take 80 ++ "...".toList else value

/-- One match in the text of a limit error. -/
def describe_match (candidate : Candidate) : Text :=
  "id=".toList ++ bounded_candidate_field candidate.id
    ++ ",role=".toList ++ bounded_candidate_field (candidate.role.getD "-".toList)
    ++ ",name=".toList ++ bounded_candidate_field (candidate.name.getD "-".toList)

/-- The choice of `resolve_candidates` among the ranked matches. -/
def choose (target : TargetSpec) (policy : ResolutionPolicy)
    (ranked : List (Candidate × CandidateEvidence)) : Except ResolutionError ResolutionDecision :=
  -- An ordinal picks one match, so a large matching set is no ambiguity for it.
  if target.ordinal.isNone && decide (policy.max_candidates < ranked.length) then
    .error (.candidate_limit_exceeded ranked.length policy.max_candidates
      ("; ".toList.intercalate ((ranked.take 10).map fun item => describe_match item.1)))
  else match ranked with
    | [] => .ok .not_found
    | (candidate, evidence) :: rest =>
      match target.ordinal with
      | some ordinal =>
        match ((candidate, evidence) :: rest)[ordinal]? with
        | some (candidate, evidence) => .ok (.resolved candidate evidence false)
        | none => .ok .not_found
      | none =>
        let unique := rest.head?.all fun second =>
          decide (policy.uniqueness_margin ≤ evidence.score - second.2.score)
        let confident := decide (policy.confidence_floor ≤ evidence.score)
        if confident && (unique || target.allow_best_match) then
          .ok (.resolved candidate evidence (!unique && target.allow_best_match))
        else .ok (.ambiguous (evidence :: rest.map Prod.snd))

def resolve_candidates (regex_new : RegexNew) (target : TargetSpec) (candidates : List Candidate)
    (policy : ResolutionPolicy) : Except ResolutionError ResolutionDecision := do
  let ranked ← rank_candidates regex_new target candidates policy
  choose target policy ranked

/-! ## What a resolution says -/

section Scored

variable {target : TargetSpec} {candidates : List Candidate} {policy : ResolutionPolicy}
  {regex : Option Regex} {entry other : Entry}

/-- The matches are the candidates of the page that are eligible and have a score. -/
theorem mem_scored : entry ∈ scored target candidates policy regex ↔
    candidates[entry.index]? = some entry.candidate ∧ eligible policy entry.candidate = true
      ∧ score target entry.candidate regex = some entry.evidence := by
  unfold scored
  rw [mem_filterMap]
  constructor
  · rintro ⟨⟨candidate, index⟩, hmem, hentry⟩
    unfold entry_of at hentry
    split at hentry
    case isTrue heligible =>
      obtain ⟨evidence, hscore, rfl⟩ := map_eq_some_iff.mp hentry
      exact ⟨mem_zipIdx_iff_getElem?.mp hmem, heligible, hscore⟩
    case isFalse => cases hentry
  · rintro ⟨hat, heligible, hscore⟩
    refine ⟨(entry.candidate, entry.index), mem_zipIdx_iff_getElem?.mpr hat, ?_⟩
    unfold entry_of
    rw [if_pos heligible, hscore, map_some]

/-- No two matches have one rank: their places in the page differ. -/
theorem keys_nodup : ((scored target candidates policy regex).map Entry.key).Nodup := by
  have hindex : (scored target candidates policy regex).Pairwise
      fun a b => a.index ≠ b.index := by
    unfold scored
    rw [pairwise_filterMap]
    have hzip : candidates.zipIdx.Pairwise fun a b => a.2 ≠ b.2 := by
      rw [← pairwise_map (f := Prod.snd) (R := (· ≠ ·)), zipIdx_map_snd]
      exact nodup_range'
    refine hzip.imp ?_
    rintro ⟨candidate, index⟩ ⟨candidate', index'⟩ hne a ha b hb
    have hfst : ∀ {c : Candidate} {i : ℕ} {e : Entry},
        entry_of target policy regex c i = some e → e.index = i := by
      intro c i e he
      unfold entry_of at he
      split at he
      case isTrue =>
        obtain ⟨evidence, -, rfl⟩ := map_eq_some_iff.mp he
        rfl
      case isFalse => cases he
    rw [hfst ha, hfst hb]
    exact hne
  refine pairwise_map.mpr (hindex.imp ?_)
  intro a b hne hkey
  exact hne (congrArg (fun key => (ofLex key).2) hkey)

/-- A candidate is matched once. -/
theorem entry_unique {census : Census} (hentry : entry ∈ scored target census.candidates policy regex)
    (hother : other ∈ scored target census.candidates policy regex)
    (h : entry.candidate = other.candidate) : entry = other := by
  obtain ⟨hat, -, hscore⟩ := mem_scored.mp hentry
  obtain ⟨hat', -, hscore'⟩ := mem_scored.mp hother
  have hindex : entry.index = other.index := by
    have hids : (census.candidates.map Candidate.id).Nodup := census.distinct
    have hlt : entry.index < (census.candidates.map Candidate.id).length := by
      rw [length_map]
      exact (List.getElem?_eq_some_iff.mp hat).1
    refine (getElem?_inj hlt hids).mp ?_
    rw [getElem?_map, getElem?_map, hat, hat', h]
  have hevidence : entry.evidence = other.evidence := by
    rw [h, hscore'] at hscore
    exact (some.inj hscore).symm
  cases entry
  cases other
  simp only at h hindex hevidence
  rw [h, hindex, hevidence]

/-- An entry that outscores every other match by the margin, in a set that is not too large. -/
def Sole (policy : ResolutionPolicy) (entries : List Entry) (entry : Entry) : Prop :=
  entry ∈ entries ∧ entries.length ≤ policy.max_candidates
    ∧ policy.confidence_floor ≤ entry.evidence.score
    ∧ ∀ other ∈ entries, other ≠ entry →
        policy.uniqueness_margin ≤ entry.evidence.score - other.evidence.score

theorem key_lt_iff : entry.key < other.key ↔ other.evidence.score < entry.evidence.score
    ∨ entry.evidence.score = other.evidence.score ∧ entry.index < other.index := by
  unfold Entry.key
  rw [Prod.Lex.toLex_lt_toLex]
  simp

theorem score_le_of_key_le (h : entry.key ≤ other.key) :
    other.evidence.score ≤ entry.evidence.score := by
  unfold Entry.key at h
  rw [Prod.Lex.toLex_le_toLex] at h
  rcases h with h | ⟨h, -⟩ <;> simp only at h <;> omega

/-- A count up to an index, over the elements with their indices. -/
theorem countP_zipIdx_lt (p : Candidate → Bool) (l : List Candidate) (start count : ℕ) :
    (l.zipIdx start).countP (fun item => p item.1 && decide (item.2 < start + count))
      = (l.take count).countP p := by
  induction l generalizing start count with
  | nil => simp
  | cons candidate l ih =>
    rw [zipIdx_cons, countP_cons]
    rcases count with _ | count
    · have hnone : (l.zipIdx (start + 1)).countP
          (fun item => p item.1 && decide (item.2 < start + 0)) = 0 := by
        rw [countP_eq_zero]
        rintro ⟨other, index⟩ hmem
        have hle := le_snd_of_mem_zipIdx hmem
        simp only at hle
        simp
        omega
      rw [hnone]
      simp
    · rw [take_succ_cons, countP_cons, ← ih (start + 1) count]
      have hlt : start < start + (count + 1) := by omega
      have hsum : start + 1 + count = start + (count + 1) := by omega
      simp [hlt, hsum]

end Scored

section Resolved

variable {regex_new : RegexNew} {target : TargetSpec} {candidates : List Candidate}
  {policy : ResolutionPolicy} {regex : Option Regex}

/-- A target that asks for no text needs no regular expression. -/
theorem compile_regex_of_text (regex_new : RegexNew) (policy : ResolutionPolicy)
    (htext : target.text = none) : compile_regex regex_new target policy = .ok none := by
  unfold compile_regex
  rw [htext]

theorem resolve_candidates_eq (hregex : compile_regex regex_new target policy = .ok regex) :
    resolve_candidates regex_new target candidates policy
      = choose target policy
          ((ranked Entry.key (scored target candidates policy regex)).map
            fun entry => (entry.candidate, entry.evidence)) := by
  unfold resolve_candidates rank_candidates rank_entries
  rw [hregex]
  rfl

/-- Once the regular expression compiles, the only error is that there are too many matches. -/
theorem resolve_candidates_error {error : ResolutionError}
    (hregex : compile_regex regex_new target policy = .ok regex)
    (h : resolve_candidates regex_new target candidates policy = .error error) :
    ∃ count limit first_matches, error = .candidate_limit_exceeded count limit first_matches := by
  rw [resolve_candidates_eq hregex] at h
  unfold choose at h
  split at h
  case isTrue =>
    cases h
    exact ⟨_, _, _, rfl⟩
  case isFalse =>
    split at h
    case h_1 => cases h
    case h_2 =>
      split at h
      case h_1 => split at h <;> cases h
      case h_2 =>
        simp only at h
        split at h <;> cases h

variable {candidate : Candidate}

/-- What a target resolves to is one of its matches. -/
theorem mem_scored_of_resolved {evidence : CandidateEvidence} {authorized : Bool}
    (h : resolve_candidates regex_new target candidates policy
      = .ok (.resolved candidate evidence authorized)) :
    ∃ regex, compile_regex regex_new target policy = .ok regex
      ∧ ∃ entry ∈ scored target candidates policy regex, entry.candidate = candidate := by
  rcases hregex : compile_regex regex_new target policy with error | regex
  · unfold resolve_candidates rank_candidates rank_entries at h
    rw [hregex] at h
    cases h
  refine ⟨regex, rfl, ?_⟩
  rw [resolve_candidates_eq hregex] at h
  suffices hmem : (candidate, evidence)
      ∈ (ranked Entry.key (scored target candidates policy regex)).map
          fun entry => (entry.candidate, entry.evidence) by
    obtain ⟨entry, hentry, heq⟩ := mem_map.mp hmem
    exact ⟨entry, Ranking.mem_ranked.mp hentry, congrArg Prod.fst heq⟩
  generalize (ranked Entry.key (scored target candidates policy regex)).map
    (fun entry => (entry.candidate, entry.evidence)) = ranked at h
  unfold choose at h
  split at h
  case isTrue => cases h
  case isFalse =>
    split at h
    case h_1 => cases h
    case h_2 first best rest =>
      split at h
      case h_1 ordinal _ =>
        split at h
        case h_1 hat =>
          cases h
          exact mem_of_getElem? hat
        case h_2 => cases h
      case h_2 =>
        simp only at h
        split at h
        case isTrue =>
          cases h
          exact mem_cons_self
        case isFalse => cases h

/-- With an ordinal the match of that rank is taken, however many there are. -/
theorem resolve_candidates_ordinal {ordinal : ℕ} (hordinal : target.ordinal = some ordinal)
    (hregex : compile_regex regex_new target policy = .ok regex) :
    resolve_candidates regex_new target candidates policy
      = .ok (match (ranked Entry.key (scored target candidates policy regex))[ordinal]? with
          | some entry => .resolved entry.candidate entry.evidence false
          | none => .not_found) := by
  rw [resolve_candidates_eq hregex]
  unfold choose
  simp only [hordinal, isNone_some, Bool.false_and, Bool.false_eq_true, if_false]
  generalize ranked Entry.key (scored target candidates policy regex) = ranked
  cases ranked with
  | nil => rfl
  | cons entry rest =>
    simp only [map_cons]
    rw [← map_cons (f := fun entry : Entry => (entry.candidate, entry.evidence)), getElem?_map]
    cases (entry :: rest)[ordinal]? <;> rfl

/-- Who beats the second beats all. -/
theorem beats_second_iff {first : Entry} {rest : List Entry}
    (hranked : ranked Entry.key (scored target candidates policy regex) = first :: rest) :
    (rest.head?.all fun second =>
        decide (policy.uniqueness_margin ≤ first.evidence.score - second.evidence.score)) = true
      ↔ ∀ other ∈ scored target candidates policy regex, other ≠ first →
          policy.uniqueness_margin ≤ first.evidence.score - other.evidence.score := by
  have hkeys : ((scored target candidates policy regex).map Entry.key).Nodup := keys_nodup
  have hpairwise := Ranking.pairwise_ranked hkeys
  rw [hranked, pairwise_cons] at hpairwise
  have hmem : ∀ other, other ∈ scored target candidates policy regex ↔ other ∈ first :: rest := by
    intro other
    rw [← hranked, Ranking.mem_ranked]
  simp only [hmem]
  cases rest with
  | nil =>
    refine ⟨fun _ other hother hne => ?_, fun _ => rfl⟩
    exact absurd (mem_singleton.mp hother) hne
  | cons second rest =>
    rw [head?_cons, all_some, decide_eq_true_eq]
    constructor
    · intro hsecond other hother hne
      have hrest := (mem_cons.mp hother).resolve_left hne
      -- Whatever follows the second match scores no more than it.
      have hle : other.evidence.score ≤ second.evidence.score := by
        rcases mem_cons.mp hrest with rfl | hrest
        · exact le_refl _
        · exact score_le_of_key_le ((pairwise_cons.mp hpairwise.2).1 other hrest).le
      omega
    · intro h
      refine h second (by simp) ?_
      rintro rfl
      exact lt_irrefl _ (hpairwise.1 second mem_cons_self)

/-- Only the first match can stand out. -/
theorem Sole.eq_first {entry first : Entry} {rest : List Entry}
    (hmargin : 0 < policy.uniqueness_margin)
    (h : Sole policy (scored target candidates policy regex) entry)
    (hranked : ranked Entry.key (scored target candidates policy regex) = first :: rest) :
    entry = first := by
  obtain ⟨hmem, -, -, hbeats⟩ := h
  by_contra hne
  have hlt := hbeats first (Ranking.mem_of_ranked_eq_cons hranked) (Ne.symm hne)
  have hle := score_le_of_key_le (Ranking.lt_of_ranked_eq_cons keys_nodup hranked hmem hne).le
  omega

/-- **When a target without an ordinal resolves**: some match stands out, and that one is given. -/
theorem resolve_candidates_resolved_iff (hordinal : target.ordinal = none)
    (hbest : target.allow_best_match = false) (hmargin : 0 < policy.uniqueness_margin)
    (hregex : compile_regex regex_new target policy = .ok regex) :
    (∃ evidence authorized, resolve_candidates regex_new target candidates policy
        = .ok (.resolved candidate evidence authorized))
      ↔ ∃ entry, Sole policy (scored target candidates policy regex) entry
          ∧ entry.candidate = candidate := by
  rw [resolve_candidates_eq hregex]
  unfold choose
  simp only [hordinal, hbest, isNone_none, Bool.true_and, Bool.or_false, Bool.and_false,
    length_map, Ranking.length_ranked, decide_eq_true_eq]
  split
  case isTrue hmany =>
    constructor
    · rintro ⟨_, _, h⟩
      cases h
    · rintro ⟨entry, ⟨-, hfew, -⟩, -⟩
      omega
  case isFalse hfew =>
    rcases hranked : ranked Entry.key (scored target candidates policy regex) with
      _ | ⟨first, rest⟩
    · constructor
      · rintro ⟨_, _, h⟩
        cases h
      · rintro ⟨entry, ⟨hmem, -⟩, -⟩
        rw [Ranking.ranked_eq_nil.mp hranked] at hmem
        cases hmem
    have hhead : ((rest.map fun entry => (entry.candidate, entry.evidence)).head?.all fun second =>
          decide (policy.uniqueness_margin ≤ first.evidence.score - second.2.score))
        = rest.head?.all fun second =>
          decide (policy.uniqueness_margin ≤ first.evidence.score - second.evidence.score) := by
      cases rest <;> rfl
    simp only [map_cons]
    split
    case isTrue htop =>
      rw [hhead, Bool.and_eq_true, decide_eq_true_eq, beats_second_iff hranked] at htop
      constructor
      · rintro ⟨_, _, h⟩
        cases h
        exact ⟨first, ⟨Ranking.mem_of_ranked_eq_cons hranked, by omega, htop.1, htop.2⟩, rfl⟩
      · rintro ⟨entry, hsole, rfl⟩
        rw [hsole.eq_first hmargin hranked]
        exact ⟨_, _, rfl⟩
    case isFalse htop =>
      rw [hhead, Bool.and_eq_true, decide_eq_true_eq, beats_second_iff hranked] at htop
      constructor
      · rintro ⟨_, _, h⟩
        cases h
      · rintro ⟨entry, hsole, rfl⟩
        obtain rfl := hsole.eq_first hmargin hranked
        exact absurd ⟨hsole.2.2.1, hsole.2.2.2⟩ htop

end Resolved

end BobbyBrowser.Resolver
