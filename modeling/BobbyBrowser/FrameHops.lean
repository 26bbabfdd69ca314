/-
Frame hops (`crates/worker-pool/src/targeting.rs`).

A candidate inside an iframe is reached through a hop: the role `iframe`, the
name of the iframe and, where several iframes have that name, the place of this
one among them. Opening the frame path resolves the hop over the candidates of
the parent. The ordinal counts the iframes whose name is exactly the same; the
resolver ranks every candidate whose role and name it takes for the same. The
hop leads back to its iframe exactly when that makes no difference.
-/
import BobbyBrowser.RoleTargets

set_option autoImplicit false

namespace BobbyBrowser.FrameHops

open Resolver Targets Texts RoleTargets List

def IFRAME : Text := "iframe".toList

/-- The filter of `semantic_iframe_hop`. -/
def is_visible_iframe (other : Candidate) : Bool :=
  other.role == some IFRAME && other.state.attached && other.state.visible

def iframe_hop_ordinal (visible_iframes : List Candidate) (candidate : Candidate) : Option ℕ :=
  let matching := visible_iframes.filter fun other =>
    candidate.name.isNone || other.name == candidate.name
  if 1 < matching.length then
    some ((matching.findIdx? fun other => other.id == candidate.id).getD 0)
  else none

def semantic_iframe_hop (candidate : Candidate) (candidates : List Candidate) :
    SemanticTargetSegment where
  role := IFRAME
  accessible_name := candidate.name.getD []
  ordinal := iframe_hop_ordinal (candidates.filter is_visible_iframe) candidate

def frame_hop (frame : Candidate) (candidates : List Candidate) : TargetSpec :=
  let segment := semantic_iframe_hop frame candidates
  { role := some segment.role
    accessible_name := if segment.accessible_name.isEmpty then none else some segment.accessible_name
    ordinal := segment.ordinal }

/-- The `normalized_frame_target` of `open_target_scope`. -/
def normalized_frame_target (frame_target : TargetSpec) : TargetSpec :=
  if frame_target.accessible_name = some [] then { frame_target with accessible_name := none }
  else frame_target

/-- The resolution `open_target_scope` makes for one hop of a frame path. -/
def open_hop (regex_new : RegexNew) (frame_target : TargetSpec) (candidates : List Candidate) :
    Except ResolutionError ResolutionDecision :=
  resolve_candidates regex_new (normalized_frame_target frame_target) candidates
    { require_visible := true }

/-! ## What the ordinal counts, and what the resolver ranks -/

/-- The iframes the ordinal of a hop counts. -/
def counted (frame other : Candidate) : Bool :=
  is_visible_iframe other && (frame.name.isNone || other.name == frame.name)

/-- The name a hop asks for; an empty one applies no filter. -/
def asked_name (frame : Candidate) : Option Text :=
  if (frame.name.getD []).isEmpty then none else some (frame.name.getD [])

/-- No candidate is taken for the iframe by mistake. Where the hop has an ordinal, every candidate
before the iframe that the resolver takes for its like is one that the ordinal counts; where it has
none, there is no such candidate, and no more than a hundred answer. -/
def Unmistaken (candidates : List Candidate) (index : ℕ) (frame : Candidate) : Prop :=
  if 1 < candidates.countP (counted frame) then
    ∀ other ∈ candidates.take index, rivals IFRAME (asked_name frame) other = true →
      counted frame other = true
  else
    (∀ other ∈ candidates, rivals IFRAME (asked_name frame) other = true → other = frame)
      ∧ candidates.countP (answers IFRAME (asked_name frame)) ≤ 100

section Hop

variable {frame other : Candidate} {candidates : List Candidate}

/-- A hop asks for the role `iframe`, the name and the ordinal, and for nothing else. -/
theorem normalized_frame_hop : normalized_frame_target (frame_hop frame candidates)
    = role_target IFRAME (asked_name frame)
        (iframe_hop_ordinal (candidates.filter is_visible_iframe) frame) := by
  have hname : (frame_hop frame candidates).accessible_name ≠ some [] := by
    change (if (frame.name.getD []).isEmpty then none else some (frame.name.getD [])) ≠ some []
    split
    case isTrue => nofun
    case isFalse hne =>
      intro heq
      exact hne (by rw [Option.some.inj heq]; rfl)
  unfold normalized_frame_target
  rw [if_neg hname]
  rfl

/-- An iframe that the ordinal counts is one that the resolver takes for a like. -/
theorem rivals_of_counted (h : counted frame other) :
    rivals IFRAME (asked_name frame) other = true := by
  unfold counted is_visible_iframe at h
  simp only [Bool.and_eq_true, beq_iff_eq, Bool.or_eq_true, Option.isNone_iff_eq_none] at h
  obtain ⟨⟨⟨hrole, hattached⟩, hvisible⟩, hname⟩ := h
  unfold rivals has_role_and_name eligible
  rw [hattached, hvisible, hrole, Option.any_some, roles_match_self]
  unfold asked_name
  rcases hname with hnone | heq
  · rw [hnone]
    rfl
  · rw [heq]
    split
    · rfl
    · simp

/-- The hop's ordinal is the number of counted iframes before this one. -/
theorem position_eq {l : List Candidate} {index : ℕ} (hids : (l.map Candidate.id).Nodup)
    (hat : l[index]? = some frame) {p : Candidate → Bool} (hp : p frame) :
    (l.filter p).findIdx? (fun other => other.id == frame.id) = some ((l.take index).countP p) := by
  induction l generalizing index with
  | nil => cases hat
  | cons first l ih =>
    rw [map_cons, nodup_cons] at hids
    rcases index with _ | index
    · rw [getElem?_cons_zero, Option.some.injEq] at hat
      subst hat
      rw [filter_cons_of_pos hp, findIdx?_cons, beq_self_eq_true]
      rfl
    · rw [getElem?_cons_succ] at hat
      have hne : (first.id == frame.id) = false := by
        rw [beq_eq_false_iff_ne]
        intro heq
        exact hids.1 (heq ▸ mem_map_of_mem (mem_of_getElem? hat))
      rw [take_succ_cons, countP_cons, filter_cons]
      split
      case isTrue =>
        rw [findIdx?_cons, hne, ih hids.2 hat]
        rfl
      case isFalse => rw [ih hids.2 hat, Nat.add_zero]

/-- The ordinal of a hop, counted over the whole list: the place of the iframe among those with its
name, if there are several. -/
theorem iframe_hop_ordinal_eq {census : Census} {index : ℕ}
    (hat : census.candidates[index]? = some frame) (hframe : is_visible_iframe frame) :
    iframe_hop_ordinal (census.candidates.filter is_visible_iframe) frame
      = if 1 < census.candidates.countP (counted frame) then
          some ((census.candidates.take index).countP (counted frame))
        else none := by
  have hself : counted frame frame = true := by simp [counted, hframe]
  have hmatching : (census.candidates.filter is_visible_iframe).filter
      (fun other => frame.name.isNone || other.name == frame.name)
        = census.candidates.filter (counted frame) := by
    rw [filter_filter]
    exact filter_congr fun other _ => Bool.and_comm _ _
  unfold iframe_hop_ordinal
  simp only [hmatching]
  rw [← countP_eq_length_filter, position_eq census.distinct hat hself, Option.getD_some]

end Hop

/-- A count that leaves nothing out. -/
theorem countP_eq_iff {α : Type*} {p q : α → Bool} {l : List α} (h : ∀ a, p a = true → q a = true) :
    l.countP q = l.countP p ↔ ∀ a ∈ l, q a = true → p a = true := by
  induction l with
  | nil => simp
  | cons a l ih =>
    have hle : l.countP p ≤ l.countP q := countP_mono_left fun a _ => h a
    rw [countP_cons, countP_cons, forall_mem_cons, ← ih]
    by_cases hq : q a = true
    · by_cases hp : p a = true
      · simp [hp, hq]
      · simp only [hp, hq]
        simp
        omega
    · have hp : ¬ p a = true := fun hp => hq (h a hp)
      simp [hp, hq]

/-! ## Reopening a frame -/

/-- **Whether a frame hop leads back to its iframe.** The hop computed for an attached, visible
iframe, opened over the same candidates, gives that iframe exactly when no candidate is taken for it
by mistake. -/
theorem frame_hop_reopens_frame (regex_new : RegexNew) (census : Census) (index : ℕ)
    (frame : Candidate) (hat : census.candidates[index]? = some frame)
    (hframe : is_visible_iframe frame = true) :
    Gives frame (open_hop regex_new (frame_hop frame census.candidates) census.candidates)
      ↔ Unmistaken census.candidates index frame := by
  have hrivals : rivals IFRAME (asked_name frame) frame = true :=
    rivals_of_counted (by simp [counted, hframe])
  unfold open_hop Unmistaken
  rw [normalized_frame_hop, iframe_hop_ordinal_eq hat hframe]
  split
  · rw [gives_numbered hat hrivals, countP_eq_iff fun other => rivals_of_counted]
  · exact gives_unnumbered hat hrivals

/-- Three advertisements; the title of the first begins with a blank. -/
def advertisements : Census where
  candidates := [control "bobby-1-1" "iframe" " Ad", control "bobby-1-2" "iframe" "Ad",
    control "bobby-1-3" "iframe" "Ad"]
  distinct := by decide +kernel

/-- The hop of the second advertisement has the ordinal 0, for the first one has another title; the
resolver takes the two titles for the same, and opens the first. -/
theorem frame_hop_opens_other_frame :
    advertisements.candidates[1]? = some (control "bobby-1-2" "iframe" "Ad")
      ∧ is_visible_iframe (control "bobby-1-2" "iframe" "Ad") = true
      ∧ ¬ Gives (control "bobby-1-2" "iframe" "Ad")
          (open_hop no_regex (frame_hop (control "bobby-1-2" "iframe" "Ad")
            advertisements.candidates) advertisements.candidates) := by
  have hopened : Gives (control "bobby-1-1" "iframe" " Ad")
      (open_hop no_regex (frame_hop (control "bobby-1-2" "iframe" "Ad") advertisements.candidates)
        advertisements.candidates) := ⟨_, _, rfl⟩
  refine ⟨rfl, by decide +kernel, ?_⟩
  rintro ⟨evidence, authorized, h⟩
  obtain ⟨_, _, hopened⟩ := hopened
  rw [hopened] at h
  injection h with h
  injection h with hcandidate
  exact absurd (congrArg Candidate.id hcandidate) (by decide)

/-- Two advertisements of one title with a player between them, and a third advertisement. -/
def banners : Census where
  candidates := [control "bobby-1-1" "iframe" "Ad", control "bobby-1-2" "iframe" "Player",
    control "bobby-1-3" "iframe" "Ad", control "bobby-1-4" "iframe" "Ad"]
  distinct := by decide +kernel

/-- The hop of the second of three advertisements with one title has the ordinal 1, and leads back to
it. -/
theorem second_advertisement_reopened :
    (frame_hop (control "bobby-1-3" "iframe" "Ad") banners.candidates).ordinal = some 1
      ∧ Gives (control "bobby-1-3" "iframe" "Ad")
          (open_hop no_regex (frame_hop (control "bobby-1-3" "iframe" "Ad") banners.candidates)
            banners.candidates) := by
  refine ⟨by decide +kernel, (frame_hop_reopens_frame no_regex banners 2
    (control "bobby-1-3" "iframe" "Ad") rfl (by decide +kernel)).mpr ?_⟩
  unfold Unmistaken
  rw [if_pos (by decide +kernel)]
  decide +kernel

end BobbyBrowser.FrameHops
