/-
The targets an intent acts through (`crates/intent-engine/src/engine.rs`).

An intent's target is resolved to a candidate, and the action is then sent with
a target built from that candidate, which the browser resolves again. The two
resolutions read the same page with the same resolver, so what has to hold is
that the second one finds the element of the first or refuses. A rebuilt target
without an ordinal does: the candidate meets its own criteria with the best
score there is. One that keeps the intent's ordinal counts other candidates
than the intent did, and the place it names can be another element's.
-/
import BobbyBrowser.Outcomes
import BobbyBrowser.Resolver

set_option autoImplicit false

namespace BobbyBrowser.Targets

open Outcomes Resolver Texts List Option

/-! ## Targets built from a candidate -/

structure SemanticTargetSegment where
  role : Text
  accessible_name : Text
  ordinal : Option ℕ
  deriving DecidableEq

structure FormControlTarget where
  attributes : Attributes
  role : Text
  accessible_name : Text
  ordinal : Option ℕ
  frame_path : List SemanticTargetSegment
  shadow_path : List SemanticTargetSegment
  deriving DecidableEq

/-- `names_by_intent`: the intent asked for the control by the name it has. -/
def names_by_intent (candidate : Candidate) (intent_target : TargetSpec) : Bool :=
  intent_target.accessible_name.any (fun name => !name.isEmpty)
    && candidate.name.any fun name => !name.isEmpty

/-- The `segment` of `form_control_target`: a hop needs a role, and an unnamed one hops by an empty
name. -/
def segment (target : TargetSpec) : Except CommandError SemanticTargetSegment :=
  match target.role with
  | none =>
    .error ⟨.invalid_request, "form control path segment requires a semantic role", .page, false⟩
  | some role => .ok ⟨role, target.accessible_name.getD [], target.ordinal⟩

/-- The name, the attributes and the ordinal a form control is asked for by. The intent's ordinal
counts controls with the intent's own name, so it carries over only to a target with that name;
otherwise the stamp identifies the control. -/
def control_identity (candidate : Candidate) (intent_target : TargetSpec) :
    Except CommandError (Text × Attributes × Option ℕ) :=
  let stamp := candidate.attributes.get CONTROL_STAMP_ATTRIBUTE
  match candidate.name.filter (fun name => !name.isEmpty), stamp with
  | some name, stamp =>
    if names_by_intent candidate intent_target then .ok (name, {}, intent_target.ordinal)
    else match stamp with
      | some stamp => .ok ([], .single CONTROL_STAMP_ATTRIBUTE stamp, none)
      | none =>
        if intent_target.ordinal.isNone then .ok (name, {}, none)
        else .error ⟨.intent_action_mismatch, "resolved form control has no accessible name",
          .page, false⟩
  | none, some stamp => .ok ([], .single CONTROL_STAMP_ATTRIBUTE stamp, none)
  | none, none =>
    .error ⟨.intent_action_mismatch, "resolved form control has no accessible name", .page, false⟩

/-- The frame path of a rebuilt target: an explicit one on the intent wins, otherwise the one the
gather stamped on the candidate. -/
def frame_path (candidate : Candidate) (intent_target : TargetSpec) : List TargetSpec :=
  if intent_target.frame_path.isEmpty then candidate.frame_path else intent_target.frame_path

/-- The role a form control is asked for by. -/
def control_role (candidate : Candidate) : Except CommandError Text :=
  match candidate.role with
  | some role => .ok role
  | none =>
    .error ⟨.intent_action_mismatch, "resolved form control has no semantic role", .page, false⟩

def form_control_target (candidate : Candidate) (intent_target : TargetSpec) :
    Except CommandError FormControlTarget := do
  let (accessible_name, attributes, ordinal) ← control_identity candidate intent_target
  let role ← control_role candidate
  let frame_path ← (frame_path candidate intent_target).mapM segment
  let shadow_path ← intent_target.shadow_path.mapM segment
  .ok { attributes, role, accessible_name, ordinal, frame_path, shadow_path }

/-- A path segment as the resolver reads it: an empty name means any. -/
def segment_spec (segment : SemanticTargetSegment) : TargetSpec where
  role := some segment.role
  accessible_name := if segment.accessible_name.isEmpty then none else some segment.accessible_name
  ordinal := segment.ordinal

/-- `control_target_spec`: a form control target as the resolver reads it. -/
def control_target_spec (target : FormControlTarget) : TargetSpec where
  role := some target.role
  attributes := target.attributes
  accessible_name := some target.accessible_name
  ordinal := target.ordinal
  frame_path := target.frame_path.map segment_spec
  shadow_path := target.shadow_path.map segment_spec

/-- `css_names_many`: a bare tag or an `aria-label` selector, which several elements can share. -/
def css_names_many (css : Text) : Bool :=
  "[aria-label=".toList.isPrefixOf css
    || (!css.isEmpty && css.all fun c => c.isAlphanum || c == '-' || c == '_')

def STATE_ATTRIBUTES : List Text :=
  ["aria-invalid", "aria-expanded", "aria-checked", "aria-selected", "aria-pressed",
    "aria-disabled", "checked", "selected", "disabled", "value"].map String.toList

/-- `identity_attributes`: a state is never identity. -/
def identity_attributes (candidate : Candidate) : Attributes :=
  candidate.attributes.filter fun name => !STATE_ATTRIBUTES.contains name

/-- The ordinal picked a candidate whose CSS names no single element. -/
def picked_by_ordinal (candidate : Candidate) (intent_target : TargetSpec) : Bool :=
  intent_target.ordinal.isSome && candidate.test_id.isNone && candidate.css.any css_names_many

/-- `action_target`: a selector and a target. -/
def action_target (candidate : Candidate) (intent_target : TargetSpec) : Text × TargetSpec :=
  if picked_by_ordinal candidate intent_target then
    -- It is resolved again the way it was picked.
    ([], { intent_target with frame_path := frame_path candidate intent_target })
  else
    ( candidate.css.getD [],
      { -- With no CSS and no test id the candidate is found by role and name over the whole page,
        -- so it keeps the ordinal that picked it.
        ordinal :=
          if candidate.css.isNone && candidate.test_id.isNone then intent_target.ordinal else none
        css := candidate.css
        test_id := candidate.test_id
        role := candidate.role
        accessible_name := candidate.name
        label := candidate.label
        attributes := identity_attributes candidate
        frame_path := frame_path candidate intent_target
        shadow_path := intent_target.shadow_path } )

/-! ## What a criterion is worth

Every criterion but the name is worth the same to each candidate that meets it. -/

variable {evidence : CandidateEvidence} {wanted : List (Text × Text)}

section Points

variable {target : TargetSpec} {candidate : Candidate} {regex : Option Regex} {points : Points}

theorem criterion_worth {wanted : Option Text} {is_met : Text → Bool} {worth : ℤ} {reason : Text}
    (h : criterion wanted is_met worth reason = some points) :
    points.1 = if wanted.isSome then worth else 0 := by
  unfold criterion at h
  split at h
  · cases h
    rfl
  · obtain ⟨-, h⟩ := ite_none_right_eq_some.mp h
    cases h
    rfl

theorem attribute_points_worth
    (h : attribute_points wanted candidate = some points) : points.1 = 20 * wanted.length := by
  induction wanted generalizing points with
  | nil =>
    rw [attribute_points, some.injEq] at h
    rw [← h]
    rfl
  | cons pair wanted ih =>
    rw [attribute_points] at h
    obtain ⟨-, h⟩ := ite_none_right_eq_some.mp h
    obtain ⟨rest, hrest, rfl⟩ := map_eq_some_iff.mp h
    have hworth := ih hrest
    simp only [length_cons]
    omega

/-- The worth of the text criterion. -/
def text_worth (target : TargetSpec) : ℤ :=
  match target.text with
  | none => 0
  | some (.exact _) => 40
  | some (.contains _) => 20
  | some (.regex _) => 15

theorem text_points_worth (h : text_points target candidate regex = some points) :
    points.1 = text_worth target := by
  unfold text_points at h
  unfold text_worth
  generalize target.text = text at h ⊢
  rcases text with _ | (expected | expected | expected)
  · rw [← some.inj h]
  all_goals
    obtain ⟨-, h⟩ := ite_none_right_eq_some.mp h
    rw [← some.inj h]

/-- The name a target compares, if any. -/
def compared_name (target : TargetSpec) : Option Text :=
  target.accessible_name.filter fun _ => !is_stamped_control_target target

theorem name_points_le (h : name_points target candidate = some points) :
    points.1 ≤ if (compared_name target).isSome then 50 else 0 := by
  unfold name_points at h
  unfold compared_name
  split at h
  case h_1 hname =>
    rw [hname, ← some.inj h]
    rfl
  case h_2 wanted hname =>
    rw [hname]
    obtain ⟨-, h⟩ := ite_none_left_eq_some.mp h
    split at h <;> rw [← some.inj h] <;> simp

/-- A target asks for no other name than the one the candidate has. -/
def OwnName (target : TargetSpec) (candidate : Candidate) : Prop :=
  ∀ wanted ∈ compared_name target,
    comparable_name (candidate.name.getD []) = comparable_name wanted →
      collapsed (candidate.name.getD []) = collapsed wanted

/-- The very name is worth 50. -/
theorem name_points_worth (hown : OwnName target candidate)
    (h : name_points target candidate = some points) :
    points.1 = if (compared_name target).isSome then 50 else 0 := by
  unfold name_points at h
  unfold OwnName compared_name at hown
  unfold compared_name
  split at h
  case h_1 hname =>
    rw [hname, ← some.inj h]
    rfl
  case h_2 wanted hname =>
    rw [hname]
    obtain ⟨hcomparable, h⟩ := ite_none_left_eq_some.mp h
    rw [if_pos (hown wanted hname (not_not.mp hcomparable))] at h
    cases h
    rfl

/-- A score is the sum of its criteria, all of them met. -/
theorem score_eq_some (h : score target candidate regex = some evidence) :
    ∃ css test_id role name label attributes text, css_points target candidate = some css
        ∧ exact_points target.test_id candidate.test_id 100 "exactTestId".toList = some test_id
        ∧ role_points target candidate = some role
        ∧ name_points target candidate = some name
        ∧ exact_points target.label candidate.label 50 "exactLabel".toList = some label
        ∧ attribute_points target.attributes.entries candidate = some attributes
        ∧ text_points target candidate regex = some text
        ∧ evidence.score
            = css.1 + test_id.1 + role.1 + name.1 + label.1 + attributes.1 + text.1 := by
  obtain ⟨css, hcss, h⟩ := bind_eq_some_iff.mp h
  obtain ⟨test_id, htest, h⟩ := bind_eq_some_iff.mp h
  obtain ⟨role, hrole, h⟩ := bind_eq_some_iff.mp h
  obtain ⟨name, hname, h⟩ := bind_eq_some_iff.mp h
  obtain ⟨label, hlabel, h⟩ := bind_eq_some_iff.mp h
  obtain ⟨attributes, hattributes, h⟩ := bind_eq_some_iff.mp h
  obtain ⟨text, htext, h⟩ := bind_eq_some_iff.mp h
  exact ⟨css, test_id, role, name, label, attributes, text, hcss, htest, hrole, hname, hlabel,
    hattributes, htext, by rw [← some.inj h]⟩

/-- **A candidate that has the very name a target asks for is outscored by none.** -/
theorem score_le_of_own_name {other : Candidate} {evidence' : CandidateEvidence}
    (hown : OwnName target candidate) (h : score target candidate regex = some evidence)
    (h' : score target other regex = some evidence') : evidence'.score ≤ evidence.score := by
  obtain ⟨_, _, _, _, _, _, _, hcss, htest, hrole, hname, hlabel, hattributes, htext, hscore⟩ :=
    score_eq_some h
  obtain ⟨_, _, _, _, _, _, _, hcss', htest', hrole', hname', hlabel', hattributes', htext',
    hscore'⟩ := score_eq_some h'
  have hle := name_points_le hname'
  rw [← name_points_worth hown hname] at hle
  rw [hscore, hscore', criterion_worth hcss, criterion_worth hcss', criterion_worth htest,
    criterion_worth htest', criterion_worth hrole, criterion_worth hrole', criterion_worth hlabel,
    criterion_worth hlabel', attribute_points_worth hattributes,
    attribute_points_worth hattributes', text_points_worth htext, text_points_worth htext']
  omega

/-- A candidate meets every criterion of a target without a text, its name compared in some normal
form. -/
def meets (normal : Text → Text) (target : TargetSpec) (other : Candidate) : Bool :=
  target.css.all (fun css => css_matches css other (parse_simple_css css))
    && target.test_id.all (fun test_id => other.test_id == some test_id)
    && target.role.all (fun role => other.role.any (roles_match role))
    && (compared_name target).all (fun name => normal (other.name.getD []) == normal name)
    && target.label.all (fun label => other.label == some label)
    && target.attributes.entries.all fun pair => other.attributes.get pair.1 == some pair.2

theorem isSome_criterion (wanted : Option Text) (is_met : Text → Bool) (worth : ℤ) (reason : Text) :
    (criterion wanted is_met worth reason).isSome = wanted.all is_met := by
  unfold criterion
  rcases wanted with _ | wanted
  · rfl
  · rcases hmet : is_met wanted with _ | _ <;> simp [hmet]

theorem isSome_name_points : (name_points target candidate).isSome
    = (compared_name target).all fun name =>
        comparable_name (candidate.name.getD []) == comparable_name name := by
  unfold name_points compared_name
  rcases target.accessible_name.filter fun _ => !is_stamped_control_target target with _ | wanted
  · rfl
  by_cases hcomparable : comparable_name (candidate.name.getD []) = comparable_name wanted
  · by_cases hcollapsed : collapsed (candidate.name.getD []) = collapsed wanted <;>
      simp [hcomparable, hcollapsed]
  · simp [hcomparable]

theorem isSome_attribute_points : (attribute_points wanted candidate).isSome
    = wanted.all fun pair => candidate.attributes.get pair.1 == some pair.2 := by
  induction wanted with
  | nil => rfl
  | cons pair wanted ih =>
    rw [attribute_points, all_cons, ← ih]
    by_cases hvalue : candidate.attributes.get pair.1 = some pair.2
    · rw [if_pos hvalue, isSome_map, hvalue, beq_self_eq_true, Bool.true_and]
    · rw [if_neg hvalue, beq_false_of_ne hvalue]
      rfl

/-- **Which candidates are scored**: those that meet every criterion, a required marker at the end of
the name aside. -/
theorem isSome_score (htext : target.text = none) :
    (score target candidate regex).isSome = meets comparable_name target candidate := by
  have hcss : (css_points target candidate).isSome = _ := isSome_criterion ..
  have htest : (exact_points target.test_id candidate.test_id 100 "exactTestId".toList).isSome = _ :=
    isSome_criterion ..
  have hrole : (role_points target candidate).isSome = _ := isSome_criterion ..
  have hlabel : (exact_points target.label candidate.label 50 "exactLabel".toList).isSome = _ :=
    isSome_criterion ..
  unfold score meets text_points
  rw [← hcss, ← htest, ← hrole, ← isSome_name_points, ← hlabel, ← isSome_attribute_points, htext]
  rcases css_points target candidate with _ | css
  · rfl
  rcases exact_points target.test_id candidate.test_id 100 "exactTestId".toList with _ | test_id
  · rfl
  rcases role_points target candidate with _ | role
  · rfl
  rcases name_points target candidate with _ | name
  · rfl
  rcases exact_points target.label candidate.label 50 "exactLabel".toList with _ | label
  · rfl
  rcases attribute_points target.attributes.entries candidate with _ | attributes
  · rfl
  · rfl

variable {other : Candidate}

theorem meets_collapsed_eq (h : meets comparable_name target other) :
    meets collapsed target other
      = (compared_name target).all fun name => collapsed (other.name.getD []) == collapsed name := by
  unfold meets at h ⊢
  simp only [Bool.and_eq_true] at h
  obtain ⟨⟨⟨⟨⟨hcss, htest⟩, hrole⟩, -⟩, hlabel⟩, hattributes⟩ := h
  rw [hcss, htest, hrole, hlabel, hattributes, Bool.and_true, Bool.and_true, Bool.true_and,
    Bool.true_and, Bool.true_and]

theorem meets_of_collapsed (h : meets collapsed target other) :
    meets comparable_name target other = true := by
  unfold meets at h ⊢
  simp only [Bool.and_eq_true] at h ⊢
  obtain ⟨⟨⟨hpoints, hname⟩, hlabel⟩, hattributes⟩ := h
  refine ⟨⟨⟨hpoints, ?_⟩, hlabel⟩, hattributes⟩
  generalize compared_name target = name at hname ⊢
  rcases name with _ | name
  · rfl
  · have heq : collapsed (other.name.getD []) = collapsed name := by simpa using hname
    simp [comparable_name, heq]

/-- A name has its full worth exactly when it is the one asked for, white space aside. -/
theorem name_points_worth_iff (h : name_points target other = some points) :
    points.1 = (if (compared_name target).isSome then 50 else 0)
      ↔ ((compared_name target).all fun name =>
          collapsed (other.name.getD []) == collapsed name) = true := by
  unfold name_points at h
  unfold compared_name
  generalize (target.accessible_name.filter fun _ => !is_stamped_control_target target) = name at h ⊢
  rcases name with _ | wanted
  · rw [← some.inj h]
    exact iff_of_true rfl rfl
  obtain ⟨-, h⟩ := ite_none_left_eq_some.mp h
  split at h
  case isTrue heq =>
    rw [← some.inj h]
    exact iff_of_true rfl (by simpa using heq)
  case isFalse hne =>
    rw [← some.inj h]
    exact iff_of_false (by simp) (by simpa using hne)

/-- **Which candidates score as much as one that has the name a target asks for**: those that have
it too, white space aside. -/
theorem score_eq_iff_meets {evidence' : CandidateEvidence} (htext : target.text = none)
    (hown : OwnName target candidate) (h : score target candidate regex = some evidence)
    (h' : score target other regex = some evidence') :
    evidence'.score = evidence.score ↔ meets collapsed target other = true := by
  have hmeets : meets comparable_name target other = true := by
    rw [← isSome_score htext, h', isSome_some]
  obtain ⟨_, _, _, _, _, _, _, hcss, htest, hrole, hname, hlabel, hattributes, hpoints, hscore⟩ :=
    score_eq_some h
  obtain ⟨_, _, _, _, _, _, _, hcss', htest', hrole', hname', hlabel', hattributes', hpoints',
    hscore'⟩ := score_eq_some h'
  rw [meets_collapsed_eq hmeets, ← name_points_worth_iff hname', ← name_points_worth hown hname,
    hscore, hscore', criterion_worth hcss, criterion_worth hcss', criterion_worth htest,
    criterion_worth htest', criterion_worth hrole, criterion_worth hrole', criterion_worth hlabel,
    criterion_worth hlabel', attribute_points_worth hattributes,
    attribute_points_worth hattributes', text_points_worth hpoints, text_points_worth hpoints']
  omega

theorem roles_match_self (role : Text) : roles_match role role = true := by
  unfold roles_match
  rw [eq_ignore_ascii_case_self, Bool.true_or]

theorem identity_attributes_own (candidate : Candidate) :
    ∀ pair ∈ (identity_attributes candidate).entries,
      candidate.attributes.get pair.1 = some pair.2 := by
  intro pair hpair
  exact Attributes.get_of_mem (mem_filter.mp hpair).1

/-- A candidate is found by its own CSS, unless white space surrounds it. -/
theorem css_matches_own {css : Text} {parsed : Option SimpleCss} (h : candidate.css = some css)
    (hne : css ≠ []) (htrim : trim css = css) : css_matches css candidate parsed = true := by
  unfold css_matches
  rw [htrim, h]
  simp [hne]

end Points

/-! ## On the page

Where a candidate stands among the matches of a target that asks for its own name is counted over
the list of the page. -/

section Page

variable {target : TargetSpec} {candidates : List Candidate} {policy : ResolutionPolicy}
  {regex : Option Regex} {mine : Entry}

/-- A candidate a target may see that meets its criteria. -/
def fits (normal : Text → Text) (policy : ResolutionPolicy) (target : TargetSpec)
    (other : Candidate) : Bool :=
  eligible policy other && meets normal target other

theorem isSome_entry_of (htext : target.text = none) (other : Candidate) (index : ℕ) :
    (entry_of target policy regex other index).isSome = fits comparable_name policy target other := by
  unfold entry_of fits
  rcases eligible policy other with _ | _
  · rfl
  · rw [if_pos rfl, isSome_map, isSome_score htext, Bool.true_and]

/-- The matches of a target are the candidates of the page that fit it. -/
theorem length_scored (htext : target.text = none) :
    (scored target candidates policy regex).length
      = candidates.countP (fits comparable_name policy target) := by
  have hfst := countP_map (p := fits comparable_name policy target) (f := Prod.fst)
    (l := candidates.zipIdx)
  rw [zipIdx_map_fst] at hfst
  unfold scored
  rw [length_filterMap_eq_countP, hfst]
  refine countP_congr ?_
  intro item _
  rw [Function.comp_apply, isSome_entry_of htext]

/-- **Where a candidate stands that has the name the target asks for**: after those before it in the
page that fit the target and have that name too. -/
theorem place_own (htext : target.text = none) (h : mine ∈ scored target candidates policy regex)
    (hown : OwnName target mine.candidate) :
    Ranking.place Entry.key (scored target candidates policy regex) mine
      = (candidates.take mine.index).countP (fits collapsed policy target) := by
  have hmine := (mem_scored.mp h).2.2
  unfold Ranking.place scored
  rw [countP_filterMap, ← countP_zipIdx_lt (fits collapsed policy target) candidates 0 mine.index]
  refine countP_congr ?_
  rintro ⟨other, index⟩ _
  rcases hentry : entry_of target policy regex other index with _ | entry
  · have hfits : ¬ fits collapsed policy target other = true := by
      intro hfits
      rw [fits, Bool.and_eq_true] at hfits
      have hsome : (entry_of target policy regex other index).isSome = _ :=
        isSome_entry_of htext other index
      rw [hentry, fits, hfits.1, meets_of_collapsed hfits.2] at hsome
      cases hsome
    simp [hfits]
  unfold entry_of at hentry
  obtain ⟨heligible, hentry⟩ := ite_none_right_eq_some.mp hentry
  obtain ⟨evidence, hscore, rfl⟩ := map_eq_some_iff.mp hentry
  have hle := score_le_of_own_name hown hmine hscore
  rw [map_some, getD_some, decide_eq_true_eq, key_lt_iff, Nat.zero_add, fits, heligible,
    Bool.true_and, Bool.and_eq_true, decide_eq_true_eq, ← score_eq_iff_meets htext hown hmine hscore]
  exact or_iff_right (not_lt.mpr hle)

end Page

/-! ## Resolving a rebuilt target -/

/-- The matches of a target, in the order of the page. -/
def found (regex_new : RegexNew) (target : TargetSpec) (candidates : List Candidate)
    (policy : ResolutionPolicy) : List Entry :=
  match compile_regex regex_new target policy with
  | .ok regex => scored target candidates policy regex
  | .error _ => []

/-- How many of the matches rank before a candidate. -/
def standing (entries : List Entry) (candidate : Candidate) : ℕ :=
  match entries.find? fun entry => entry.candidate.id = candidate.id with
  | some entry => Ranking.place Entry.key entries entry
  | none => 0

/-- The resolver gives this candidate, or refuses: no match, no match that stands out, or more
matches than it looks at. -/
def GivesOnly (candidate : Candidate) : Except ResolutionError ResolutionDecision → Prop
  | .ok (.resolved given _ _) => given = candidate
  | .ok (.ambiguous _) | .ok .not_found | .error (.candidate_limit_exceeded ..) => True
  | .error .regex_too_long | .error (.invalid_regex _) => False

/-- A rebuilt target points back at the candidate. With an ordinal, as many matches rank before the
candidate as did for the intent's target, or too few match for the ordinal to reach one. Without,
the candidate is among the matches, or no match stands out. -/
def PointsBack (regex_new : RegexNew) (policy : ResolutionPolicy) (candidates : List Candidate)
    (intent_target rebuilt : TargetSpec) (candidate : Candidate) : Prop :=
  match rebuilt.ordinal with
  | some ordinal =>
    standing (found regex_new rebuilt candidates policy) candidate
        = standing (found regex_new intent_target candidates policy) candidate
      ∨ (found regex_new rebuilt candidates policy).length ≤ ordinal
  | none =>
    (∃ entry ∈ found regex_new rebuilt candidates policy, entry.candidate = candidate)
      ∨ ∀ entry, ¬ Sole policy (found regex_new rebuilt candidates policy) entry

section PointsBack

variable {regex_new : RegexNew} {policy : ResolutionPolicy} {census : Census}
  {intent_target rebuilt : TargetSpec} {candidate : Candidate} {regex : Option Regex}
  {target : TargetSpec}

theorem found_eq {candidates : List Candidate}
    (h : compile_regex regex_new target policy = .ok regex) :
    found regex_new target candidates policy = scored target candidates policy regex := by
  unfold found
  rw [h]

/-- Where a match stands is how many rank before it. -/
theorem standing_eq {entry : Entry} (h : entry ∈ scored target census.candidates policy regex) :
    standing (scored target census.candidates policy regex) entry.candidate
      = Ranking.place Entry.key (scored target census.candidates policy regex) entry := by
  unfold standing
  split
  case h_1 first hfirst =>
    have hmem := mem_of_find?_eq_some hfirst
    have hid : first.candidate.id = entry.candidate.id := by
      simpa using find?_some hfirst
    have hcandidate : first.candidate = entry.candidate := by
      have hat := mem_of_getElem? (mem_scored.mp hmem).1
      have hat' := mem_of_getElem? (mem_scored.mp h).1
      exact inj_on_of_nodup_map census.distinct hat hat' hid
    rw [entry_unique hmem h hcandidate]
  case h_2 hnone =>
    have hne := find?_eq_none.mp hnone entry h
    simp at hne

/-- The candidate that an ordinal picked stands at that place. -/
theorem standing_of_ordinal {ordinal : ℕ} {authorized : Bool}
    (hordinal : intent_target.ordinal = some ordinal)
    (h : resolve_candidates regex_new intent_target census.candidates policy
      = .ok (.resolved candidate evidence authorized)) :
    standing (found regex_new intent_target census.candidates policy) candidate = ordinal := by
  obtain ⟨regex, hregex, -⟩ := mem_scored_of_resolved h
  rw [resolve_candidates_ordinal hordinal hregex] at h
  rw [found_eq hregex]
  split at h
  case h_1 entry hat =>
    cases h
    obtain ⟨hmem, hplace⟩ := (Ranking.getElem?_ranked_eq_some_iff keys_nodup).mp hat
    rw [standing_eq hmem, hplace]
  case h_2 => cases h

/-- With an ordinal, the rebuilt target gives the candidate exactly when the candidate stands at
that place, or nothing does. -/
theorem givesOnly_ordinal {ordinal : ℕ} {entry : Entry} (hordinal : rebuilt.ordinal = some ordinal)
    (hregex : compile_regex regex_new rebuilt policy = .ok regex)
    (hentry : entry ∈ scored rebuilt census.candidates policy regex) :
    GivesOnly entry.candidate (resolve_candidates regex_new rebuilt census.candidates policy)
      ↔ standing (scored rebuilt census.candidates policy regex) entry.candidate = ordinal
          ∨ (scored rebuilt census.candidates policy regex).length ≤ ordinal := by
  rw [resolve_candidates_ordinal hordinal hregex, standing_eq hentry]
  constructor
  · intro hgives
    by_cases hlt : ordinal < (scored rebuilt census.candidates policy regex).length
    · obtain ⟨there, hmem, hplace⟩ := Ranking.exists_place keys_nodup hlt
      rw [(Ranking.getElem?_ranked_eq_some_iff keys_nodup).mpr ⟨hmem, hplace⟩] at hgives
      rw [← entry_unique hmem hentry hgives]
      exact .inl hplace
    · exact .inr (by omega)
  · rintro (hplace | hlength)
    · rw [(Ranking.getElem?_ranked_eq_some_iff keys_nodup).mpr ⟨hentry, hplace⟩]
      rfl
    · rw [getElem?_eq_none (by rwa [Ranking.length_ranked])]
      trivial

/-- Without an ordinal, the rebuilt target gives nothing but the candidate exactly when no other
match stands out. -/
theorem givesOnly_unnumbered (hordinal : rebuilt.ordinal = none)
    (hbest : rebuilt.allow_best_match = false) (hmargin : 0 < policy.uniqueness_margin)
    (hregex : compile_regex regex_new rebuilt policy = .ok regex) :
    GivesOnly candidate (resolve_candidates regex_new rebuilt census.candidates policy)
      ↔ ∀ entry, Sole policy (scored rebuilt census.candidates policy regex) entry →
          entry.candidate = candidate := by
  constructor
  · intro hgives entry hsole
    obtain ⟨_, _, hresolved⟩ :=
      (resolve_candidates_resolved_iff hordinal hbest hmargin hregex).mpr ⟨entry, hsole, rfl⟩
    rw [hresolved] at hgives
    exact hgives
  intro hsole
  rcases hresult : resolve_candidates regex_new rebuilt census.candidates policy with error | decision
  · obtain ⟨_, _, _, rfl⟩ := resolve_candidates_error hregex hresult
    trivial
  rcases decision with ⟨given, evidence, authorized⟩ | candidates | _
  · obtain ⟨entry, hentry, rfl⟩ :=
      (resolve_candidates_resolved_iff hordinal hbest hmargin hregex).mp ⟨_, _, hresult⟩
    exact hsole entry hentry
  · trivial
  · trivial

/-- A rebuilt target that asks for the own name of the candidate gives no other exactly when it
points back. -/
theorem givesOnly_iff_pointsBack {authorized : Bool} (hmargin : 0 < policy.uniqueness_margin)
    (h : resolve_candidates regex_new intent_target census.candidates policy
      = .ok (.resolved candidate evidence authorized))
    (htext : rebuilt.text = none) (hbest : rebuilt.allow_best_match = false)
    (hname : OwnName rebuilt candidate) (hordinal : ∀ ordinal, rebuilt.ordinal = some ordinal →
      intent_target.ordinal = some ordinal ∧ meets comparable_name rebuilt candidate) :
    GivesOnly candidate (resolve_candidates regex_new rebuilt census.candidates policy)
      ↔ PointsBack regex_new policy census.candidates intent_target rebuilt candidate := by
  have hregex := compile_regex_of_text regex_new policy htext
  obtain ⟨regex, -, mine, hmine, rfl⟩ := mem_scored_of_resolved h
  obtain ⟨hat, heligible, -⟩ := mem_scored.mp hmine
  unfold PointsBack
  rw [found_eq hregex]
  rcases hnumber : rebuilt.ordinal with _ | ordinal
  · rw [givesOnly_unnumbered hnumber hbest hmargin hregex]
    constructor
    · intro hsole
      by_cases hfound : ∃ entry ∈ scored rebuilt census.candidates policy none,
          entry.candidate = mine.candidate
      · exact .inl hfound
      · exact .inr fun entry hentry => hfound ⟨entry, hentry.1, hsole entry hentry⟩
    rintro (⟨own, hown, hcandidate⟩ | hnone) entry hsole
    · -- Nothing outscores the candidate on its own target, so only it can stand out.
      by_contra hne
      have hbeats := hsole.2.2.2 own hown (fun heq => hne (heq ▸ hcandidate))
      have hle := score_le_of_own_name hname (hcandidate ▸ (mem_scored.mp hown).2.2)
        (mem_scored.mp hsole.1).2.2
      omega
    · exact absurd hsole (hnone entry)
  · obtain ⟨hintent, hmeets⟩ := hordinal ordinal hnumber
    obtain ⟨own, hown⟩ := isSome_iff_exists.mp ((isSome_score htext).trans hmeets)
    have hmem : (⟨mine.index, mine.candidate, own⟩ : Entry)
        ∈ scored rebuilt census.candidates policy none := mem_scored.mpr ⟨hat, heligible, hown⟩
    rw [givesOnly_ordinal hnumber hregex hmem, standing_of_ordinal hintent h]

/-- **When a target points back, on the page.** Let a rebuilt target ask for the candidate's own name
and let the candidate meet its criteria. It points back unless it has an ordinal; with one it does
when the ordinal is the number of candidates before this one in the page that fit the target and
have its name, or when no more fit than the ordinal skips. -/
theorem pointsBack_iff {index : ℕ} {authorized : Bool}
    (h : resolve_candidates regex_new intent_target census.candidates policy
      = .ok (.resolved candidate evidence authorized))
    (hat : census.candidates[index]? = some candidate) (htext : rebuilt.text = none)
    (hname : OwnName rebuilt candidate) (hmeets : meets comparable_name rebuilt candidate)
    (hkept : ∀ ordinal, rebuilt.ordinal = some ordinal → intent_target.ordinal = some ordinal) :
    PointsBack regex_new policy census.candidates intent_target rebuilt candidate
      ↔ ∀ ordinal ∈ rebuilt.ordinal,
          (census.candidates.take index).countP (fits collapsed policy rebuilt) = ordinal
            ∨ census.candidates.countP (fits comparable_name policy rebuilt) ≤ ordinal := by
  have hregex := compile_regex_of_text regex_new policy htext
  obtain ⟨regex, -, mine, hmine, rfl⟩ := mem_scored_of_resolved h
  have hscored : (score rebuilt mine.candidate none).isSome = true :=
    (isSome_score htext).trans hmeets
  obtain ⟨own, hown⟩ := isSome_iff_exists.mp hscored
  have hmem : (⟨index, mine.candidate, own⟩ : Entry)
      ∈ scored rebuilt census.candidates policy none :=
    mem_scored.mpr ⟨hat, (mem_scored.mp hmine).2.1, hown⟩
  unfold PointsBack
  rw [found_eq hregex]
  rcases hnumber : rebuilt.ordinal with _ | ordinal
  · exact iff_of_true (.inl ⟨_, hmem, rfl⟩) nofun
  · have hlength : (scored rebuilt census.candidates policy none).length = _ := length_scored htext
    simp only [mem_some_iff, forall_eq']
    rw [standing_of_ordinal (hkept ordinal hnumber) h, hlength, standing_eq hmem,
      place_own htext hmem hname]

theorem action_target_ownName (hordinal : picked_by_ordinal candidate intent_target = false) :
    OwnName (action_target candidate intent_target).2 candidate := by
  intro wanted hwanted _
  unfold action_target compared_name at hwanted
  rw [if_neg (by simp [hordinal])] at hwanted
  have hname : candidate.name = some wanted := (filter_eq_some_iff.mp hwanted).1
  rw [hname, getD_some]

/-- A candidate meets the criteria of its own action target, unless white space surrounds its CSS. -/
theorem meets_action_target (hordinal : picked_by_ordinal candidate intent_target = false)
    (hcss : ∀ css ∈ candidate.css, css ≠ [] ∧ trim css = css) :
    meets comparable_name (action_target candidate intent_target).2 candidate = true := by
  have hown : ∀ value : Option Text, (value.all fun wanted => value == some wanted) = true := by
    rintro (_ | value)
    · rfl
    · exact beq_self_eq_true _
  unfold action_target
  rw [if_neg (by simp [hordinal])]
  unfold meets
  simp only [Bool.and_eq_true]
  refine ⟨⟨⟨⟨⟨?_, hown _⟩, ?_⟩, ?_⟩, hown _⟩, ?_⟩
  · rw [Option.all_eq_true]
    intro css hmem
    exact css_matches_own hmem (hcss css hmem).1 (hcss css hmem).2
  · rcases candidate.role with _ | role
    · rfl
    · exact roles_match_self role
  · rw [Option.all_eq_true]
    intro wanted hwanted
    have hname : candidate.name = some wanted := (filter_eq_some_iff.mp hwanted).1
    rw [hname, getD_some, beq_self_eq_true]
  · rw [List.all_eq_true]
    intro pair hpair
    rw [identity_attributes_own candidate pair hpair, beq_self_eq_true]

/-- A form control is asked for by its name, perhaps with the intent's ordinal, or by its stamp. -/
theorem control_identity_cases {name : Text} {attributes : Attributes} {ordinal : Option ℕ}
    (h : control_identity candidate intent_target = .ok (name, attributes, ordinal)) :
    (candidate.name = some name ∧ attributes = {} ∧ (ordinal = intent_target.ordinal ∨ ordinal = none))
      ∨ (name = [] ∧ ordinal = none ∧ ∃ stamp,
          candidate.attributes.get CONTROL_STAMP_ATTRIBUTE = some stamp
            ∧ attributes = .single CONTROL_STAMP_ATTRIBUTE stamp) := by
  unfold control_identity at h
  simp only at h
  split at h
  case h_1 _ own hown =>
    have hname : candidate.name = some own := (filter_eq_some_iff.mp hown).1
    split at h
    case isTrue =>
      cases h
      exact .inl ⟨hname, rfl, .inl rfl⟩
    case isFalse =>
      split at h
      case h_1 stamp hstamp =>
        cases h
        exact .inr ⟨rfl, rfl, stamp, hstamp, rfl⟩
      case h_2 =>
        split at h
        case isTrue =>
          cases h
          exact .inl ⟨hname, rfl, .inr rfl⟩
        case isFalse => cases h
  case h_2 stamp _ hstamp =>
    cases h
    exact .inr ⟨rfl, rfl, stamp, hstamp, rfl⟩
  case h_3 => cases h

variable {target : FormControlTarget}

/-- What a form control target takes from the candidate. -/
theorem form_control_target_ok (h : form_control_target candidate intent_target = .ok target) :
    control_identity candidate intent_target
        = .ok (target.accessible_name, target.attributes, target.ordinal)
      ∧ candidate.role = some target.role := by
  unfold form_control_target at h
  rcases hidentity : control_identity candidate intent_target with error | ⟨name, attributes, ordinal⟩
  · rw [hidentity] at h
    cases h
  rw [hidentity] at h
  unfold control_role at h
  rcases hrole : candidate.role with _ | role
  · rw [hrole] at h
    cases h
  rw [hrole] at h
  rcases hframe : (frame_path candidate intent_target).mapM segment with _ | frames
  · simp only [hframe] at h
    cases h
  rcases hshadow : intent_target.shadow_path.mapM segment with _ | shadows
  · simp only [hframe, hshadow] at h
    cases h
  · simp only [hframe, hshadow] at h
    cases h
    exact ⟨rfl, rfl⟩

theorem collapsed_of_comparable_name {name : Text} (h : comparable_name name = comparable_name []) :
    collapsed name = collapsed [] := by
  have hnil : comparable_name [] = [] := rfl
  rw [hnil] at h
  unfold comparable_name at h
  simp only at h
  split at h
  case isTrue => exact h
  case isFalse hne => exact absurd (by rw [h]; rfl) hne

section

variable (h : form_control_target candidate intent_target = .ok target)

include h

theorem control_target_ownName : OwnName (control_target_spec target) candidate := by
  intro wanted hwanted hcomparable
  have hname : some target.accessible_name = some wanted := (filter_eq_some_iff.mp hwanted).1
  obtain rfl := some.inj hname
  rcases control_identity_cases (form_control_target_ok h).1 with ⟨hown, -, -⟩ | ⟨hnil, -⟩
  · rw [hown, getD_some]
  · rw [hnil] at hcomparable ⊢
    exact collapsed_of_comparable_name hcomparable

/-- A control meets the criteria of its own form control target, unless it is asked for by its stamp
and its role is blank. -/
theorem meets_control_target
    (hasked : candidate.name = some target.accessible_name ∨ trim target.role ≠ []) :
    meets comparable_name (control_target_spec target) candidate = true := by
  obtain ⟨hidentity, hrole⟩ := form_control_target_ok h
  have hroles : candidate.role.any (roles_match target.role) = true := by
    rw [hrole]
    exact roles_match_self target.role
  unfold meets
  simp only [Bool.and_eq_true]
  refine ⟨⟨⟨⟨⟨rfl, rfl⟩, hroles⟩, ?_⟩, rfl⟩, ?_⟩
  · rw [Option.all_eq_true]
    intro wanted hwanted
    obtain ⟨hsome, hunstamped⟩ := filter_eq_some_iff.mp hwanted
    have hsome : some target.accessible_name = some wanted := hsome
    suffices hname : candidate.name = some wanted by rw [hname, getD_some, beq_self_eq_true]
    rw [← hsome]
    rcases control_identity_cases hidentity with ⟨hname, -, -⟩ | ⟨hnil, -, stamp, -, hattributes⟩
    · exact hname
    · refine hasked.resolve_right fun hblank => ?_
      have hstamped : is_stamped_control_target (control_target_spec target) = true := by
        simp [is_stamped_control_target, control_target_spec, hnil, hattributes, hblank,
          Attributes.single, Attributes.contains_key, Attributes.get, Keyed.get]
      rw [hstamped] at hunstamped
      cases hunstamped
  · rw [List.all_eq_true]
    intro pair hpair
    have hpair : pair ∈ target.attributes.entries := hpair
    rcases control_identity_cases hidentity with ⟨-, hnone, -⟩ | ⟨-, -, stamp, hstamp, hattributes⟩
    · rw [hnone] at hpair
      cases hpair
    · rw [hattributes] at hpair
      rw [mem_singleton.mp hpair, hstamp, beq_self_eq_true]

end

variable {index : ℕ} {authorized : Bool}
  (h : resolve_candidates regex_new intent_target census.candidates policy
    = .ok (.resolved candidate evidence authorized))
  (hat : census.candidates[index]? = some candidate)

include h hat

/-- **When an action target points back, on the page**, for a candidate whose CSS has no white space
around it. -/
theorem action_target_pointsBack_iff (hordinal : picked_by_ordinal candidate intent_target = false)
    (hcss : ∀ css ∈ candidate.css, css ≠ [] ∧ trim css = css) :
    PointsBack regex_new policy census.candidates intent_target
        (action_target candidate intent_target).2 candidate
      ↔ ∀ ordinal ∈ (action_target candidate intent_target).2.ordinal,
          (census.candidates.take index).countP
              (fits collapsed policy (action_target candidate intent_target).2) = ordinal
            ∨ census.candidates.countP
              (fits comparable_name policy (action_target candidate intent_target).2) ≤ ordinal := by
  refine pointsBack_iff h hat ?_ (action_target_ownName hordinal)
    (meets_action_target hordinal hcss) ?_
  · simp [action_target, hordinal]
  · intro ordinal hkept
    simp only [action_target, hordinal, Bool.false_eq_true, if_false] at hkept
    exact (ite_none_right_eq_some.mp hkept).2

/-- **When a form control target points back, on the page**, for a control that is asked for by its
name or has a role that is not blank. -/
theorem control_target_pointsBack_iff (htarget : form_control_target candidate intent_target = .ok target)
    (hasked : candidate.name = some target.accessible_name ∨ trim target.role ≠ []) :
    PointsBack regex_new policy census.candidates intent_target (control_target_spec target) candidate
      ↔ ∀ ordinal ∈ target.ordinal,
          (census.candidates.take index).countP
              (fits collapsed policy (control_target_spec target)) = ordinal
            ∨ census.candidates.countP
              (fits comparable_name policy (control_target_spec target)) ≤ ordinal := by
  refine pointsBack_iff h hat rfl (control_target_ownName htarget)
    (meets_control_target htarget hasked) ?_
  intro ordinal hordinal
  have hordinal : target.ordinal = some ordinal := hordinal
  rcases control_identity_cases (form_control_target_ok htarget).1 with
    ⟨-, -, hkept | hnone⟩ | ⟨-, hnone, -⟩
  · exact hkept ▸ hordinal
  · rw [hnone] at hordinal
    cases hordinal
  · rw [hnone] at hordinal
    cases hordinal

end PointsBack

/-! ## Two pages -/

/-- A control of an accessibility tree: a role and a name, no CSS and no test id. -/
def control (id role name : String) : Candidate where
  id := id.toList
  role := some role.toList
  name := some name.toList

/-- Three buttons, two of them with one name. -/
def buttons : Census where
  candidates := [control "a11y-0" "button" "Edit", control "a11y-1" "button" "Delete",
    control "a11y-2" "button" "Delete"]
  distinct := by decide +kernel

/-- A required field and an optional one with one name, as the page marks them. -/
def fields : Census where
  candidates := [control "a11y-0" "textbox" "Email *", control "a11y-1" "textbox" "Email"]
  distinct := by decide +kernel

/-- A regular expression engine that compiles nothing. -/
def no_regex : RegexNew := fun _ => .error []

end BobbyBrowser.Targets
