/-
Targets that ask for a role and a name (`crates/dom-engine/src/resolver.rs`).

A frame hop and the target of a prompt row carry a role, perhaps a name, and
perhaps an ordinal, and nothing else. The resolver then tells three kinds of
candidates apart: those whose name is the one asked for up to white space, those
that answer the target for another reason, and the rest. Which candidate the
target gives is counted here over the list of the page.
-/
import BobbyBrowser.Targets

set_option autoImplicit false

namespace BobbyBrowser.RoleTargets

open Resolver Targets Texts List Option

def role_target (role : Text) (name : Option Text) (ordinal : Option ℕ) : TargetSpec :=
  { role := some role, accessible_name := name, ordinal }

/-- A candidate a target may see, with its role, and with its name in some normal form. -/
def has_role_and_name (normal : Text → Text) (role : Text) (name : Option Text)
    (other : Candidate) : Bool :=
  eligible {} other && other.role.any (roles_match role)
    && name.all fun name => normal (other.name.getD []) == normal name

/-- A candidate that meets every criterion of the target. -/
abbrev answers : Text → Option Text → Candidate → Bool := has_role_and_name comparable_name

/-- A candidate that answers with the very name, white space aside: none scores more. -/
abbrev rivals : Text → Option Text → Candidate → Bool := has_role_and_name collapsed

/-- The matches of a target of this kind, in the order of the page. -/
abbrev answering (role : Text) (name : Option Text) (ordinal : Option ℕ)
    (candidates : List Candidate) : List Entry :=
  scored (role_target role name ordinal) candidates {} none

section

variable {role : Text} {name : Option Text} {ordinal : Option ℕ} {candidates : List Candidate}
  {entry : Entry} {other : Candidate} {index : ℕ}

theorem compared_name_role_target : compared_name (role_target role name ordinal) = name := by
  have hstamped : is_stamped_control_target (role_target role name ordinal) = false := by
    simp [is_stamped_control_target, role_target]
  unfold compared_name
  rw [hstamped]
  rcases name with _ | name
  · rfl
  · rfl

/-- A target of this kind has no other criteria. -/
theorem fits_role_target (normal : Text → Text) (ordinal : Option ℕ) :
    fits normal {} (role_target role name ordinal) other
      = has_role_and_name normal role name other := by
  unfold fits meets has_role_and_name
  rw [compared_name_role_target]
  simp [role_target, Bool.and_assoc]

theorem answers_of_rivals (h : rivals role name other) : answers role name other = true := by
  have hfits := (fits_role_target collapsed none).trans h
  rw [fits, Bool.and_eq_true] at hfits
  refine (fits_role_target comparable_name none).symm.trans ?_
  rw [fits, hfits.1, meets_of_collapsed hfits.2, Bool.and_self]

theorem ownName_of_rivals (h : rivals role name other) :
    OwnName (role_target role name ordinal) other := by
  intro wanted hwanted _
  rw [compared_name_role_target] at hwanted
  unfold rivals has_role_and_name at h
  rw [Bool.and_eq_true, hwanted] at h
  simpa using h.2

theorem length_answering :
    (answering role name ordinal candidates).length = candidates.countP (answers role name) := by
  rw [length_scored rfl]
  exact congrArg (countP · candidates) (funext fun other => fits_role_target comparable_name ordinal)

/-- A candidate that answers is among the matches, at its place in the page. -/
theorem exists_entry (ordinal : Option ℕ) (hat : candidates[index]? = some other)
    (h : answers role name other) :
    ∃ entry ∈ answering role name ordinal candidates, entry.index = index ∧ entry.candidate = other := by
  have hfits := (fits_role_target comparable_name ordinal).trans h
  rw [fits, Bool.and_eq_true] at hfits
  have hscored : (score (role_target role name ordinal) other none).isSome = true :=
    (isSome_score rfl).trans hfits.2
  obtain ⟨evidence, hscore⟩ := isSome_iff_exists.mp hscored
  exact ⟨⟨index, other, evidence⟩, mem_scored.mpr ⟨hat, hfits.1, hscore⟩, rfl, rfl⟩

/-- **Where a candidate stands that has the name the target asks for**: after those before it in the
page that have that name too. -/
theorem place_answering (h : entry ∈ answering role name ordinal candidates)
    (hrivals : rivals role name entry.candidate) :
    Ranking.place Entry.key (answering role name ordinal candidates) entry
      = (candidates.take entry.index).countP (rivals role name) := by
  rw [place_own rfl h (ownName_of_rivals hrivals)]
  exact congrArg (countP · _) (funext fun other => fits_role_target collapsed ordinal)

/-- A candidate that has the name scores at least what its role is worth. -/
theorem one_le_score (h : entry ∈ answering role name ordinal candidates)
    (hrivals : rivals role name entry.candidate) : 1 ≤ entry.evidence.score := by
  obtain ⟨_, _, _, _, _, _, _, hcss, htest, hrole, hname, hlabel, hattributes, htext, hscore⟩ :=
    score_eq_some (mem_scored.mp h).2.2
  rw [hscore, criterion_worth hcss, criterion_worth htest, criterion_worth hrole,
    name_points_worth (ownName_of_rivals hrivals) hname, criterion_worth hlabel,
    attribute_points_worth hattributes, text_points_worth htext, compared_name_role_target]
  cases name with
  | none => simp [role_target, text_worth]
  | some name => simp [role_target, text_worth]

end

/-! ## Which candidate is given -/

/-- The resolver gives this candidate. -/
def Gives (candidate : Candidate) (result : Except ResolutionError ResolutionDecision) : Prop :=
  ∃ evidence authorized, result = .ok (.resolved candidate evidence authorized)

section

variable {regex_new : RegexNew} {census : Census} {role : Text} {name : Option Text} {index : ℕ}
  {candidate : Candidate}

section

variable {candidates : List Candidate} {ordinal : ℕ}

/-- With an ordinal, the match of that rank is given. -/
theorem gives_iff :
    Gives candidate (resolve_candidates regex_new (role_target role name (some ordinal))
        candidates {})
      ↔ ∃ entry, (Ranking.ranked Entry.key (answering role name (some ordinal) candidates))[ordinal]?
          = some entry ∧ entry.candidate = candidate := by
  unfold Gives
  rw [resolve_candidates_ordinal rfl rfl]
  rcases (Ranking.ranked Entry.key (answering role name (some ordinal) candidates))[ordinal]?
    with _ | entry
  · simp
  · simp

theorem gives_none_iff :
    (∀ other, ¬ Gives other (resolve_candidates regex_new (role_target role name (some ordinal))
        candidates {}))
      ↔ candidates.countP (answers role name) ≤ ordinal := by
  have hlength : (Ranking.ranked Entry.key (answering role name (some ordinal) candidates)).length
      = candidates.countP (answers role name) := by
    rw [Ranking.length_ranked, length_answering]
  rw [← hlength, ← getElem?_eq_none_iff, eq_none_iff_forall_ne_some]
  simp [gives_iff]

theorem eligible_of_gives
    (h : Gives candidate (resolve_candidates regex_new (role_target role name (some ordinal))
      candidates {})) : eligible {} candidate = true := by
  obtain ⟨entry, hranked, rfl⟩ := gives_iff.mp h
  exact (mem_scored.mp (Ranking.mem_ranked.mp (mem_of_getElem? hranked))).2.1

end

section

variable (hat : census.candidates[index]? = some candidate) (hrivals : rivals role name candidate)

include hat hrivals

/-- **With an ordinal**, the candidate is given that has so many of its name before it. -/
theorem gives_numbered (ordinal : ℕ) :
    Gives candidate (resolve_candidates regex_new (role_target role name (some ordinal))
        census.candidates {})
      ↔ (census.candidates.take index).countP (rivals role name) = ordinal := by
  obtain ⟨mine, hmem, rfl, rfl⟩ := exists_entry (some ordinal) hat (answers_of_rivals hrivals)
  rw [← place_answering hmem hrivals, gives_iff]
  constructor
  · rintro ⟨entry, hranked, hcandidate⟩
    obtain ⟨hentry, hstands⟩ := (Ranking.getElem?_ranked_eq_some_iff keys_nodup).mp hranked
    rw [entry_unique hentry hmem hcandidate] at hstands
    exact hstands
  · intro hstands
    exact ⟨mine, (Ranking.getElem?_ranked_eq_some_iff keys_nodup).mpr ⟨hmem, hstands⟩, rfl⟩

/-- **Without one**, the candidate is given that is the only one of its name, if no more than a
hundred answer. -/
theorem gives_unnumbered :
    Gives candidate (resolve_candidates regex_new (role_target role name none) census.candidates {})
      ↔ (∀ other ∈ census.candidates, rivals role name other = true → other = candidate)
          ∧ census.candidates.countP (answers role name) ≤ 100 := by
  obtain ⟨mine, hmem, rfl, rfl⟩ := exists_entry none hat (answers_of_rivals hrivals)
  have hown : OwnName (role_target role name none) mine.candidate := ownName_of_rivals hrivals
  have hmine := (mem_scored.mp hmem).2.2
  -- with its own name asked for, only a candidate of the same name scores as much
  have htie : ∀ entry ∈ answering role name none census.candidates,
      entry.evidence.score = mine.evidence.score ↔ rivals role name entry.candidate = true := by
    intro entry hentry
    obtain ⟨-, heligible, hscore⟩ := mem_scored.mp hentry
    have hfits : fits collapsed {} (role_target role name none) entry.candidate
        = rivals role name entry.candidate := fits_role_target collapsed none
    rw [score_eq_iff_meets rfl hown hmine hscore, ← hfits, fits, heligible, Bool.true_and]
  unfold Gives
  rw [resolve_candidates_resolved_iff rfl rfl Int.zero_lt_one rfl, ← length_answering]
  constructor
  · rintro ⟨entry, ⟨hentry, hfew, -, hbeats⟩, heq⟩
    rw [entry_unique hentry hmem heq] at hbeats
    refine ⟨?_, hfew⟩
    intro other hother halike
    obtain ⟨place, hplace⟩ := getElem?_of_mem hother
    obtain ⟨rival, hrival, -, rfl⟩ := exists_entry none hplace (answers_of_rivals halike)
    by_contra hne
    -- Two that have the name score the same, so neither stands out.
    have hmargin : (1 : ℤ) ≤ _ := hbeats rival hrival fun heq => hne (by rw [heq])
    have hscore := (htie rival hrival).mpr halike
    omega
  · rintro ⟨hsole, hfew⟩
    refine ⟨mine, ⟨hmem, hfew, one_le_score hmem hrivals, ?_⟩, rfl⟩
    intro other hother hne
    have hle := score_le_of_own_name hown hmine (mem_scored.mp hother).2.2
    have hless : other.evidence.score ≠ mine.evidence.score := by
      intro heq
      have hin := mem_of_getElem? (mem_scored.mp hother).1
      exact hne (entry_unique hother hmem
        (hsole other.candidate hin ((htie other hother).mp heq)))
    change (1 : ℤ) ≤ _
    omega

end

end

end BobbyBrowser.RoleTargets
