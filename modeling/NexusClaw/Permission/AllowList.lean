import NexusClaw.Governance.Guardrail

/-!
# Resolved allow-lists

`permission/src/allow-list-resolver.ts`: an agent's grants come from the first list that has any, the
agent's own extension, its guardrail rules or the defaults, and the blocked tools are taken out of
it. Taking grants away or blocking more tools never grants a tool, except by emptying the list that
was consulted: then the next one is consulted in its place.
-/

namespace NexusClaw.Permission.AllowList
open Governance (checkToolAccess checkToolAccess_iff)

structure AllowListSources where
  extensionAllowedTools : Option (List String) := none
  guardrailAllowedTools : Option (List String) := none
  blockedTools : Option (List String) := none
  defaultTools : Option (List String) := none

/-- `list && list.length > 0` -/
def hasEntries : Option (List String) → Bool
  | none => false
  | some tools => tools.length > 0

/-- `resolveAllowedTools` -/
def resolveAllowedTools (sources : AllowListSources) : List String :=
  let allowed :=
    if hasEntries sources.extensionAllowedTools then sources.extensionAllowedTools.getD []
    else if hasEntries sources.guardrailAllowedTools then sources.guardrailAllowedTools.getD []
    else sources.defaultTools.getD []
  if hasEntries sources.blockedTools then
    allowed.filter fun tool => !(sources.blockedTools.getD []).contains tool
  else allowed

/-- A tool is accepted against the resolved allow-list and the block-list of a configuration. -/
def accepts (sources : AllowListSources) (tool : String) : Bool :=
  checkToolAccess tool (resolveAllowedTools sources) (sources.blockedTools.getD [])

/-! ## The list that is consulted -/

/-- The lists that grant tools. -/
inductive Source where
  | extension
  | guardrail
  | default
deriving DecidableEq

def grants (sources : AllowListSources) : Source → List String
  | .extension => sources.extensionAllowedTools.getD []
  | .guardrail => sources.guardrailAllowedTools.getD []
  | .default => sources.defaultTools.getD []

/-- The list that a configuration consults. -/
def consulted (sources : AllowListSources) : Source :=
  if grants sources .extension ≠ [] then .extension
  else if grants sources .guardrail ≠ [] then .guardrail
  else .default

/-- The order in which lists are consulted. -/
def Source.rank : Source → Nat
  | .extension => 0
  | .guardrail => 1
  | .default => 2

/-- When a list has entries. -/
lemma hasEntries_iff {tools : Option (List String)} :
    hasEntries tools = true ↔ tools.getD [] ≠ [] := by
  cases tools with
  | none => simp [hasEntries]
  | some tools => simp [hasEntries, List.length_pos_iff]

/-- When a tool is allowed. -/
lemma mem_resolveAllowedTools {sources : AllowListSources} {tool : String} :
    tool ∈ resolveAllowedTools sources ↔
      tool ∈ grants sources (consulted sources) ∧ tool ∉ sources.blockedTools.getD [] := by
  have hallowed :
      (if hasEntries sources.extensionAllowedTools then sources.extensionAllowedTools.getD []
        else if hasEntries sources.guardrailAllowedTools then
          sources.guardrailAllowedTools.getD []
        else sources.defaultTools.getD []) = grants sources (consulted sources) := by
    simp only [hasEntries_iff]
    show (if grants sources .extension ≠ [] then grants sources .extension
      else if grants sources .guardrail ≠ [] then grants sources .guardrail
      else grants sources .default) = grants sources (consulted sources)
    unfold consulted
    split
    · rfl
    · split <;> rfl
  unfold resolveAllowedTools
  rw [hallowed]
  dsimp only
  split
  · rw [List.mem_filter, Bool.not_eq_true', ← Bool.not_eq_true, List.contains_iff_mem]
  · next h =>
    rw [hasEntries_iff, not_not] at h
    simp [h]

/-- When a tool is accepted. -/
lemma accepts_iff {sources : AllowListSources} {tool : String} :
    accepts sources tool = true ↔
      tool ∈ grants sources (consulted sources) ∧ tool ∉ sources.blockedTools.getD [] := by
  unfold accepts
  rw [checkToolAccess_iff, mem_resolveAllowedTools]
  exact ⟨fun h => h.1, fun h => ⟨h, h.2⟩⟩

/-- A list with entries is consulted unless an earlier one has some. -/
lemma consulted_eq {sources : AllowListSources} {source : Source}
    (hearlier : ∀ other, other.rank < source.rank → grants sources other = [])
    (hsome : grants sources source ≠ [] ∨ source = .default) : consulted sources = source := by
  unfold consulted
  cases source with
  | extension =>
    rcases hsome with hsome | hdefault
    · rw [if_pos hsome]
    · cases hdefault
  | guardrail =>
    rcases hsome with hsome | hdefault
    · rw [if_neg (not_not_intro (hearlier .extension (by decide))), if_pos hsome]
    · cases hdefault
  | default =>
    rw [if_neg (not_not_intro (hearlier .extension (by decide))),
      if_neg (not_not_intro (hearlier .guardrail (by decide)))]

/-- The lists before the one consulted are empty, and it has entries unless it is the last. -/
lemma consulted_spec (sources : AllowListSources) :
    (∀ other, other.rank < (consulted sources).rank → grants sources other = []) ∧
      (grants sources (consulted sources) ≠ [] ∨ consulted sources = .default) := by
  unfold consulted
  split
  · next h => exact ⟨fun other hrank => absurd hrank (Nat.not_lt_zero _), .inl h⟩
  · next hext =>
    split
    · next h =>
      refine ⟨fun other hrank => ?_, .inl h⟩
      cases other with
      | extension => exact not_not.1 hext
      | guardrail => exact absurd hrank (by decide)
      | default => exact absurd hrank (by decide)
    · next hguard =>
      refine ⟨fun other hrank => ?_, .inr rfl⟩
      cases other with
      | extension => exact not_not.1 hext
      | guardrail => exact not_not.1 hguard
      | default => exact absurd hrank (by decide)

/-! ## Revocation -/

/-- The second configuration takes entries away from the grants of the first, or adds blocked
tools. -/
structure Revokes (sources sources' : AllowListSources) : Prop where
  grants : ∀ source, (grants sources' source).Sublist (grants sources source)
  blocked : sources.blockedTools.getD [] ⊆ sources'.blockedTools.getD []

/-- The list that the first configuration consults has lost all its entries. -/
def Emptied (sources sources' : AllowListSources) : Prop :=
  grants sources (consulted sources) ≠ [] ∧ grants sources' (consulted sources) = []

section revocation
variable {sources sources' : AllowListSources} {tool : String}

/-- No revocation has an earlier list consulted. -/
lemma Revokes.rank_le (h : Revokes sources sources') :
    (consulted sources).rank ≤ (consulted sources').rank := by
  refine Nat.le_of_not_lt fun hlt => ?_
  have hempty := (consulted_spec sources).1 _ hlt
  rcases (consulted_spec sources').2 with hsome | hdefault
  · exact hsome (List.sublist_nil.1 (hempty ▸ h.grants _))
  · rw [hdefault] at hlt
    cases hconsulted : consulted sources <;> rw [hconsulted] at hlt <;> simp [Source.rank] at hlt

/-- The same list is consulted as long as it has entries left. -/
lemma Revokes.consulted_eq (h : Revokes sources sources') (hleft : ¬ Emptied sources sources') :
    consulted sources' = consulted sources := by
  obtain ⟨hearlier, hsome⟩ := consulted_spec sources
  refine AllowList.consulted_eq (fun other hrank => ?_) ?_
  · exact List.sublist_nil.1 (hearlier other hrank ▸ h.grants other)
  · rcases hsome with hsome | hdefault
    · exact .inl fun hempty => hleft ⟨hsome, hempty⟩
    · exact .inr hdefault

/-- A revocation that leaves entries in the list consulted grants no tool; one that empties it can
only grant tools of the lists consulted after it that were not blocked. -/
theorem revocation_grants (h : Revokes sources sources')
    (haccepts : accepts sources' tool = true) :
    (¬ Emptied sources sources' → accepts sources tool = true) ∧
      (Emptied sources sources' → tool ∉ sources.blockedTools.getD [] ∧
        ∃ source, (consulted sources).rank < source.rank ∧ tool ∈ AllowList.grants sources source) := by
  obtain ⟨hgrant, hblocked⟩ := accepts_iff.1 haccepts
  have hfree : tool ∉ sources.blockedTools.getD [] := fun hin => hblocked (h.blocked hin)
  constructor
  · intro hleft
    rw [h.consulted_eq hleft] at hgrant
    exact accepts_iff.2 ⟨(h.grants _).subset hgrant, hfree⟩
  · intro hemptied
    refine ⟨hfree, consulted sources', Nat.lt_of_le_of_ne h.rank_le fun hsame => ?_,
      (h.grants _).subset hgrant⟩
    have heq : consulted sources' = consulted sources := by
      cases hs : consulted sources <;> cases hs' : consulted sources' <;>
        rw [hs, hs'] at hsame <;> simp [Source.rank] at hsame ⊢
    rw [heq, hemptied.2] at hgrant
    cases hgrant

end revocation

/-- The agent's own list, with `email.send` granted by the guardrail rules too. -/
def agentTools : AllowListSources where
  extensionAllowedTools := some ["record.query", "record.update"]
  guardrailAllowedTools := some ["email.send"]

/-- Taking one of two tools away keeps to the agent's own list, taking both away opens the
guardrail's. -/
theorem agentTools_revoked :
    accepts agentTools "record.query" = true ∧
      ∃ source, (consulted agentTools).rank < source.rank ∧
        "email.send" ∈ grants agentTools source := by
  have hone : Revokes agentTools
      { agentTools with extensionAllowedTools := some ["record.query"] } := by
    refine ⟨fun source => ?_, fun tool h => h⟩
    cases source with
    | extension => exact .cons_cons _ (.cons _ .slnil)
    | guardrail => exact .refl _
    | default => exact .refl _
  have hboth : Revokes agentTools { agentTools with extensionAllowedTools := some [] } := by
    refine ⟨fun source => ?_, fun tool h => h⟩
    cases source with
    | extension => exact List.nil_sublist _
    | guardrail => exact .refl _
    | default => exact .refl _
  constructor
  · exact (revocation_grants hone (by decide +kernel)).1 fun h => absurd h.2 (by decide +kernel)
  · refine ((revocation_grants hboth ?_).2 ⟨?_, ?_⟩).2 <;> decide +kernel

/-- Taking the last entry of the agent's own list away grants what the guardrail rules list. -/
theorem emptied_list_grants : ¬ ∀ sources sources' tool, Revokes sources sources' →
    accepts sources' tool = true → accepts sources tool = true := by
  intro h
  have hrevokes : Revokes { extensionAllowedTools := some ["a"], guardrailAllowedTools := some ["b"] }
      { extensionAllowedTools := some [], guardrailAllowedTools := some ["b"] } := by
    refine ⟨fun source => ?_, fun tool hin => hin⟩
    cases source with
    | extension => exact List.nil_sublist _
    | guardrail => exact .refl _
    | default => exact .refl _
  exact absurd (h _ _ "b" hrevokes (by decide +kernel)) (by decide +kernel)

end NexusClaw.Permission.AllowList
