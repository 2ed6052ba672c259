import NexusClaw.AgentRuntime.PromptTags

/-!
# The fence around untrusted text

No line of the neutralized text begins with a role marker, the length limit keeps that, and the text
comes through the fence just where its label and its tags are those that are looked for
(`fenced_iff`).
-/

namespace NexusClaw.PromptSanitizer
open AuditChain (Units unit units decimalUnits)
open Permission.DataScope (isSpace)
open AgentMarkdownPolicy (lower dropToken lineFeed)

/-! ## Role markers of the neutralized text -/

section roleMarkers
variable {s t rest name : Units} {c : UInt16}

/-- No token is closed where something else follows each of them. -/
lemma closedToken_eq_none {tokens : List Units} {close : UInt16}
    (h : ∀ found, dropFirst tokens (s.dropWhile isSpace) = some found →
      (found.2.dropWhile isSpace).head? ≠ some close) : closedToken tokens close s = none := by
  unfold closedToken
  cases hfound : dropFirst tokens (s.dropWhile isSpace) with
  | none => rfl
  | some found =>
    have hclose := h found hfound
    dsimp only
    cases hrest : found.2.dropWhile isSpace with
    | nil => rfl
    | cons d rest =>
      rw [hrest, List.head?_cons] at hclose
      exact if_neg fun heq => hclose (congrArg some heq)

/-- A token that is not closed is followed by something else. -/
lemma closedToken_ne_none {tokens : List Units} {close : UInt16} {found : Units × Units}
    (hfound : dropFirst tokens (s.dropWhile isSpace) = some found)
    (h : closedToken tokens close s = none) : (found.2.dropWhile isSpace).head? ≠ some close := by
  unfold closedToken at h
  rw [hfound] at h
  dsimp only at h
  intro hclose
  obtain ⟨rest, hrest⟩ := List.head?_eq_some_iff.1 hclose
  rw [hrest] at h
  dsimp only at h
  rw [if_pos rfl] at h
  cases h

/-- A role that has lost its colon. -/
lemma roleBody_role (hname : name.map lower ∈ roles) (rest : Units) :
    roleBody (name ++ longMark :: rest) = none := by
  refine closedToken_eq_none fun found hfound => ?_
  obtain ⟨d, tail, rfl, hd, -⟩ := role_head hname
  rw [List.cons_append, List.dropWhile_cons_of_neg (by simp [hd]), ← List.cons_append,
    dropFirst_append (by decide)] at hfound
  obtain ⟨found, htoken, rfl⟩ := Option.map_eq_some_iff.1 hfound
  obtain ⟨hsplit, -⟩ := dropFirst_spec htoken
  dsimp only
  rw [dropWhile_append_stop (by decide)]
  cases hrest : found.2.dropWhile isSpace with
  | nil =>
    rw [List.nil_append, List.head?_cons]
    decide
  | cons c more =>
    rw [List.cons_append, List.head?_cons, Ne, Option.some_inj]
    rintro rfl
    refine not_mem_token (by decide) (by decide) hname (c := colon) ?_
    rw [hsplit]
    exact List.mem_append_right _ ((List.dropWhile_suffix isSpace).subset (hrest ▸ List.mem_cons_self ..))

/-- No marker arises at the head of a text. -/
lemma roleBody_defang (h : roleBody s = none) : roleBody (defang s) = none := by
  rcases dropWhile_defang s with ⟨-, hdrop⟩ | ⟨-, role, rest, hbody, -⟩
  · refine closedToken_eq_none fun found hfound => ?_
    rw [hdrop, dropFirst_map (fun token htoken => dropToken_defang
      ((by decide : ∀ token ∈ roles, lineFeed ∉ token) token htoken))] at hfound
    obtain ⟨source, hsource, rfl⟩ := Option.map_eq_some_iff.1 hfound
    dsimp only
    rw [head?_dropWhile_defang]
    exact closedToken_ne_none hsource h
  · rw [hbody] at h
    cases h

/-- A text that begins with a unit of the second part is within it. -/
lemma cons_suffix_append {front : Units} (hc : c ∉ front) (h : c :: t <:+ front ++ s) :
    c :: t <:+ s := by
  induction front with
  | nil => exact h
  | cons d front ih =>
    obtain ⟨hd, hfront⟩ := not_or.1 (List.mem_cons.not.1 hc)
    rcases List.suffix_cons_iff.1 h with heq | hsuffix
    · exact absurd (List.cons_eq_cons.1 heq).1 hd
    · exact ih hfront hsuffix

/-- No role has a line feed in it. -/
lemma lineFeed_not_mem_role (hname : name.map lower ∈ roles) : lineFeed ∉ name := by
  intro hmem
  have hspace := role_char hname hmem
  exact absurd hspace (by decide)

/-- No marker follows a line feed. -/
lemma roleBody_behind (h : lineFeed :: t <:+ defang s) : roleBody t = none := by
  unfold defang at h
  -- induction along the replacements, from left to right
  induction s using Scan.replace_induction proper_roleAt generalizing t with
  | nil =>
    rw [Scan.replace_nil, List.suffix_nil] at h
    cases h
  | copy c s hnone ih =>
    rw [Scan.replace_none hnone] at h
    rcases List.suffix_cons_iff.1 h with heq | hsuffix
    · obtain ⟨hc, rfl⟩ := List.cons_eq_cons.1 heq
      rw [← hc, roleAt_lineFeed, Option.map_eq_none_iff] at hnone
      exact roleBody_defang hnone
    · exact ih hsuffix
  | change s replacement n hsome ih =>
    rw [Scan.replace_some proper_roleAt hsome] at h
    cases s with
    | nil => cases hsome
    | cons c s =>
      by_cases hc : c = lineFeed
      · rw [hc, roleAt_lineFeed] at hsome
        obtain ⟨body, hbody, hpair⟩ := Option.map_eq_some_iff.1 hsome
        cases hpair
        have hrole := (closedToken_spec hbody).1
        rw [List.cons_append, List.cons_append, List.append_assoc] at h
        rcases List.suffix_cons_iff.1 h with heq | hsuffix
        · obtain ⟨-, rfl⟩ := List.cons_eq_cons.1 heq
          exact roleBody_role hrole _
        · have hbehind := cons_suffix_append (lineFeed_not_mem_role hrole) hsuffix
          exact ih (cons_suffix_append (by decide) hbehind)
      · rw [roleAt_other hc] at hsome
        cases hsome

/-- No line of a neutralized text begins with a role. -/
lemma neutralize_roles (text : Units) : roleBody (neutralize text) = none ∧
    ∀ t, lineFeed :: t <:+ neutralize text → roleBody t = none := by
  unfold neutralize
  rw [defangRoles_eq]
  cases hbody : roleBody (breakFences text) with
  | none => exact ⟨roleBody_defang hbody, fun t h => roleBody_behind h⟩
  | some found =>
    obtain ⟨role, rest⟩ := found
    have hrole := (closedToken_spec hbody).1
    refine ⟨roleBody_role hrole _, fun t h => ?_⟩
    have hbehind := cons_suffix_append (lineFeed_not_mem_role hrole) h
    have hrest : lineFeed :: t <:+ defang rest := by
      rcases List.suffix_cons_iff.1 hbehind with heq | hsuffix
      · exact absurd (List.cons_eq_cons.1 heq).1 (by decide)
      · exact hsuffix
    exact roleBody_behind hrest

/-- A marker is read up to its colon. -/
lemma roleBody_colon (h : roleBody s = some (name, rest)) :
    ∃ m, s = m ++ colon :: rest ∧ (roleBody (m ++ [colon])).isSome := by
  obtain ⟨m, rfl⟩ := (closedToken_spec h).2.1
  refine ⟨m, rfl, ?_⟩
  unfold roleBody at h
  rw [closedToken_close (by decide) (by decide)] at h
  obtain ⟨found, hfound, -⟩ := Option.map_eq_some_iff.1 h
  unfold roleBody
  rw [hfound]
  rfl

/-- A role marker at the beginning of a text or behind a line feed. -/
def RoleSpoof (s : Units) : Prop :=
  ∃ m, (m ++ [colon] <+: s ∨ ∃ a, a ++ lineFeed :: (m ++ [colon]) <+: s) ∧
    (roleBody (m ++ [colon])).isSome

/-- A role at the start of a line is a spoofed one. -/
lemma roleSpoof_of_roleBody (h : (roleBody t).isSome) (ht : t <+: s ∨ lineFeed :: t <:+: s) :
    RoleSpoof s := by
  obtain ⟨found, hbody⟩ := Option.isSome_iff_exists.1 h
  obtain ⟨m, hm, hsome⟩ := roleBody_colon hbody
  have hbegins : m ++ [colon] <+: t := ⟨found.2, by rw [hm, List.append_assoc]; rfl⟩
  refine ⟨m, ht.imp hbegins.trans fun ⟨a, b, hab⟩ => ⟨a, ?_⟩, hsome⟩
  obtain ⟨tail, htail⟩ := hbegins
  refine ⟨tail ++ b, ?_⟩
  rw [← hab, ← htail]
  simp

/-- What the code's own test finds is a spoofed role. -/
lemma roleSpoof_of_test (h : roleSpoofSystem s = true) : RoleSpoof s := by
  unfold roleSpoofSystem at h
  rcases Bool.or_eq_true_iff.1 h with hhead | hbehind
  · exact roleSpoof_of_roleBody hhead (.inl (List.prefix_refl s))
  · obtain ⟨t, ht, hsome⟩ := List.any_eq_true.1 hbehind
    rw [List.mem_tails] at ht
    cases t with
    | nil => cases hsome
    | cons c t =>
      by_cases hc : c = lineFeed
      · rw [hc, roleAt_lineFeed, Option.isSome_map] at hsome
        exact roleSpoof_of_roleBody hsome (.inr (hc ▸ ht.isInfix))
      · rw [roleAt_other hc] at hsome
        cases hsome

/-- A role is read however the line goes on. -/
lemma roleBody_prefix {m : Units} (hm : m ++ [colon] <+: s) (h : (roleBody (m ++ [colon])).isSome) :
    roleBody s ≠ none := by
  obtain ⟨later, rfl⟩ := hm
  unfold roleBody at h ⊢
  rw [List.append_assoc, List.singleton_append, closedToken_close (by decide) (by decide)]
  intro hnone
  rw [Option.map_eq_none_iff] at hnone
  rw [hnone] at h
  cases h

/-- A neutralized text has no spoofed role. -/
theorem neutralize_no_roleSpoof (text : Units) : ¬ RoleSpoof (neutralize text) := by
  obtain ⟨hhead, hbehind⟩ := neutralize_roles text
  rintro ⟨m, hm | ⟨a, hm⟩, hsome⟩
  · exact roleBody_prefix hm hsome hhead
  · obtain ⟨later, hlater⟩ := hm
    refine roleBody_prefix (s := m ++ [colon] ++ later) (List.prefix_append _ _) hsome ?_
    exact hbehind _ ⟨a, by rw [← hlater, List.append_assoc a]; rfl⟩

end roleMarkers

/-! ## The length limit -/

section limit
variable {s t p text label : Units} {c : UInt16} {n : Nat}

/-- What ends in a character that the end of a text does not have stands in front of it. -/
lemma concat_prefix_append (hc : c ∉ t) (h : p ++ [c] <+: s ++ t) : p ++ [c] <+: s := by
  obtain ⟨later, hlater⟩ := h
  rcases List.append_eq_append_iff.1 hlater with ⟨gap, rfl, -⟩ | ⟨gap, hp, rfl⟩
  · exact List.prefix_append _ _
  · cases gap with
    | nil =>
      rw [List.append_nil] at hp
      rw [hp]
    | cons d gap =>
      refine absurd (List.mem_append_left later ?_) hc
      obtain ⟨front, last, hlast⟩ := List.eq_nil_or_concat (d :: gap) |>.resolve_left (List.cons_ne_nil d gap)
      rw [hlast, List.concat_eq_append] at hp ⊢
      rw [← List.append_assoc] at hp
      obtain ⟨-, hend⟩ := List.append_inj' hp rfl
      rw [List.singleton_inj.1 hend]
      exact List.mem_append_right _ (List.mem_singleton_self _)

/-- A tag at the end of a text. -/
lemma tag_concat (a x : Units) : a ++ opening :: (x ++ [closing]) = (a ++ opening :: x) ++ [closing] := by
  rw [List.append_assoc]
  rfl

/-- A text without a closing bracket adds no tag. -/
lemma hasTag_append (hc : closing ∉ t) : HasTag (s ++ t) ↔ HasTag s := by
  constructor
  · rintro ⟨a, x, hbegins, hx, htag⟩
    refine ⟨a, x, ?_, hx, htag⟩
    rw [tag_concat] at hbegins ⊢
    exact concat_prefix_append hc hbegins
  · rintro ⟨a, x, hbegins, hx, htag⟩
    exact ⟨a, x, hbegins.trans (List.prefix_append s t), hx, htag⟩

/-- A unit that opens no bracket adds no tag. -/
lemma hasTag_cons (hc : c ≠ opening) : HasTag (c :: s) ↔ HasTag s := by
  constructor
  · rintro ⟨a, x, hbegins, hx, htag⟩
    cases a with
    | nil => exact absurd (List.cons_prefix_cons.1 hbegins).1 hc.symm
    | cons d a => exact ⟨a, x, (List.cons_prefix_cons.1 hbegins).2, hx, htag⟩
  · rintro ⟨a, x, hbegins, hx, htag⟩
    exact ⟨c :: a, x, List.cons_prefix_cons.2 ⟨rfl, hbegins⟩, hx, htag⟩

/-- The tags in the first characters of a neutralized text. -/
lemma hasTag_take : HasTag ((neutralize text).take n) ↔
    ∃ a x, a ++ opening :: (x ++ [closing]) <+: text ∧ closing ∉ x ∧ Stray x ∧
      (neutralize (a ++ opening :: (x ++ [closing]))).length ≤ n := by
  constructor
  · rintro ⟨a', x', hbegins, hx', htag⟩
    rw [List.prefix_take_iff] at hbegins
    obtain ⟨a, x, htext, hx, hsame, -, hstray⟩ := neutralize_source hbegins.1 hx'
    refine ⟨a, x, htext, hx, hstray.1 htag, ?_⟩
    rw [hsame]
    exact hbegins.2
  · rintro ⟨a, x, htext, hx, hstray, hlength⟩
    obtain ⟨x', hsame, hbegins, hx', htag⟩ := neutralize_prefix htext hx
    refine ⟨neutralize a, x', ?_, hx', htag.2 hstray⟩
    rw [← hsame]
    exact List.prefix_take_iff.2 ⟨hbegins, hlength⟩

/-- What stands in the note of a truncation. -/
lemma truncationNote_plain (hc : c ≠ lineFeed) (hdigit : AuditChain.isDigit c = false)
    (hfront : c ∉ units "[...truncated ") (hbehind : c ∉ units " chars]") (n : Nat) :
    c ∉ truncationNote n := by
  intro hmem
  rcases List.mem_append.1 hmem with hmem | hmem
  · rcases List.mem_append.1 hmem with hmem | hmem
    · exact (List.mem_cons.1 hmem).elim hc hfront
    · rw [AuditChain.decimalUnits_digits n c hmem] at hdigit
      cases hdigit
  · exact hbehind hmem

/-- The sanitized text: the first characters, and what has no bracket or colon. -/
lemma sanitize_eq (text : Units) (n : Nat) : ∃ t, closing ∉ t ∧ colon ∉ t ∧
    sanitizeUntrustedText text n = (neutralize text).take n ++ t := by
  unfold sanitizeUntrustedText
  dsimp only
  split
  · refine ⟨_, ?_, ?_, rfl⟩
    · exact truncationNote_plain (by decide) (by decide) (by decide) (by decide) _
    · exact truncationNote_plain (by decide) (by decide) (by decide) (by decide) _
  · rename_i hlength
    refine ⟨[], List.not_mem_nil, List.not_mem_nil, ?_⟩
    rw [List.append_nil, List.take_of_length_le (Nat.le_of_not_lt hlength)]

/-- The fence adds no tag to its content. -/
lemma hasTag_fencedBody : HasTag (fencedBody text) ↔ HasTag ((neutralize text).take 4000) := by
  obtain ⟨t, ht, -, hsafe⟩ := sanitize_eq text 4000
  unfold fencedBody
  rw [hsafe, List.cons_append, hasTag_cons (by decide), hasTag_append (by decide), hasTag_append ht]

/-- A longer text has the spoofed roles of the shorter. -/
lemma roleSpoof_mono (h : s <+: t) : RoleSpoof s → RoleSpoof t := by
  rintro ⟨m, hm | ⟨a, hm⟩, hsome⟩
  · exact ⟨m, .inl (hm.trans h), hsome⟩
  · exact ⟨m, .inr ⟨a, hm.trans h⟩, hsome⟩

/-- A text without a colon adds no role. -/
lemma roleSpoof_append (hc : colon ∉ t) : RoleSpoof (s ++ t) → RoleSpoof s := by
  rintro ⟨m, hm | ⟨a, hm⟩, hsome⟩
  · exact ⟨m, .inl (concat_prefix_append hc hm), hsome⟩
  · refine ⟨m, .inr ⟨a, ?_⟩, hsome⟩
    rw [← List.cons_append, ← List.append_assoc] at hm ⊢
    exact concat_prefix_append hc hm

/-- A line feed in front adds no role. -/
lemma roleSpoof_lineFeed : RoleSpoof (lineFeed :: s) → RoleSpoof s := by
  rintro ⟨m, hm | ⟨a, hm⟩, hsome⟩
  · cases m with
    | nil => exact absurd (List.cons_prefix_cons.1 hm).1 (by decide)
    | cons d m =>
      obtain ⟨rfl, hbehind⟩ := List.cons_prefix_cons.1 hm
      rw [List.cons_append, roleBody_cons_space (by decide)] at hsome
      exact ⟨m, .inl hbehind, hsome⟩
  · cases a with
    | nil =>
      obtain ⟨-, hbehind⟩ := List.cons_prefix_cons.1 hm
      exact ⟨m, .inl hbehind, hsome⟩
    | cons d a =>
      obtain ⟨-, hbehind⟩ := List.cons_prefix_cons.1 hm
      exact ⟨m, .inr ⟨a, hbehind⟩, hsome⟩

/-- A sanitized text has no spoofed role. -/
lemma sanitize_no_roleSpoof (text : Units) (n : Nat) : ¬ RoleSpoof (sanitizeUntrustedText text n) := by
  obtain ⟨t, -, ht, hsafe⟩ := sanitize_eq text n
  rw [hsafe]
  exact fun h => neutralize_no_roleSpoof text (roleSpoof_mono (List.take_prefix n _) (roleSpoof_append ht h))

/-- No line of a fenced body begins with a role. -/
lemma fencedBody_lines {line : Units} (h : line ∈ (fencedBody text).splitOn lineFeed) :
    roleBody line = none := by
  by_contra hbody
  have hspoof : RoleSpoof (fencedBody text) :=
    roleSpoof_of_roleBody (Option.isSome_iff_ne_none.2 hbody) (Lines.mem_splitOn_infix h)
  exact sanitize_no_roleSpoof text 4000 (roleSpoof_lineFeed (roleSpoof_append (by decide) hspoof))

/-- The delimiter test finds nothing in a sanitized text. -/
lemma sanitize_no_delimiter (text : Units) (n : Nat) :
    delimiterSpoof (sanitizeUntrustedText text n) = false := by
  by_contra h
  rw [Bool.not_eq_false] at h
  obtain ⟨t, ht, hsome⟩ := List.any_eq_true.1 h
  rw [List.mem_tails] at ht
  cases t with
  | nil => cases hsome
  | cons c t =>
    -- a tag that is left would stand in the neutralized text, where its bracket was broken
    by_cases hc : c = opening
    · rw [hc, fenceAt_opening, Option.isSome_map] at hsome
      have hne := Option.isSome_iff_ne_none.1 hsome
      have hclosing : closing ∈ t := not_imp_comm.1 fenceBody_none hne
      obtain ⟨x', later, rfl, hx'⟩ := List.eq_append_cons_of_mem hclosing
      obtain ⟨a, ha⟩ := ht
      obtain ⟨note, hnote, -, hsafe⟩ := sanitize_eq text n
      have hbegins : a ++ opening :: (x' ++ [closing]) <+: neutralize text := by
        have hwhole : a ++ opening :: (x' ++ [closing]) <+: (neutralize text).take n ++ note := by
          refine ⟨later, ?_⟩
          rw [← hsafe, ← ha, hc, List.append_assoc a, List.cons_append, List.append_assoc x']
          rfl
        rw [tag_concat] at hwhole ⊢
        exact (concat_prefix_append hnote hwhole).trans (List.take_prefix n _)
      obtain ⟨-, -, -, -, -, hfence, -⟩ := neutralize_source hbegins hx'
      exact hne ((fenceBody_eq_none hx' later).2 hfence)
    · rw [fenceAt_other hc] at hsome
      cases hsome

end limit

/-! ## The fence -/

/-- Untrusted text is fenced: what stands between the two tags of `wrapUntrustedContent` reads as no
tag and has no line with a role marker, the opening tag is read back with its label, and the text is
not reported for either. -/
structure Fenced (text label : Units) : Prop where
  body : ∀ body, wrapUntrustedContent text label = openingTag label ++ body ++ units "</untrusted_data>" →
    ¬ HasTag body ∧ ∀ line ∈ body.splitOn lineFeed, roleBody line = none
  quoted : (label ++ units "\">").takeWhile (· ≠ doubleQuote) = label
  tag : (openingTag label).takeWhile (· ≠ closing) ++ [closing] = openingTag label
  undetected : ∀ others maxLength,
    InjectionLabel.roleSpoofSystem ∉
        detectInjectionPatterns others (sanitizeUntrustedText text maxLength) ∧
      InjectionLabel.delimiterSpoof ∉
        detectInjectionPatterns others (sanitizeUntrustedText text maxLength)

section fence
variable {text label body : Units} {c : UInt16}

/-- The wrapped text determines its body. -/
lemma wrap_body : wrapUntrustedContent text label = openingTag label ++ body ++ units "</untrusted_data>" ↔
    body = fencedBody text := by
  unfold wrapUntrustedContent
  rw [List.append_left_inj, List.append_right_inj, eq_comm]

/-- What stands in front of the first occurrence of a unit. -/
lemma takeWhile_stop {s later : Units} (hs : c ∉ s) : (s ++ c :: later).takeWhile (· ≠ c) = s := by
  have hpos : ∀ d ∈ s, decide (d ≠ c) = true := by
    intro d hd
    refine decide_eq_true ?_
    rintro rfl
    exact hs hd
  rw [List.takeWhile_append_of_pos hpos, List.takeWhile_cons_of_neg (by simp), List.append_nil]

/-- The unit itself is not in it. -/
lemma not_mem_takeWhile (s : Units) : c ∉ s.takeWhile (· ≠ c) := by
  intro h
  have hne := List.mem_takeWhile_imp h
  exact absurd rfl (of_decide_eq_true hne)

/-- The label stands between its quotes. -/
lemma quoted_iff : (label ++ units "\">").takeWhile (· ≠ doubleQuote) = label ↔
    doubleQuote ∉ label :=
  ⟨fun h => h ▸ not_mem_takeWhile _, fun h => takeWhile_stop h⟩

/-- The opening tag, piece by piece. -/
lemma openingTag_eq (label : Units) :
    openingTag label = units "<untrusted_data source=\"" ++ label ++ [doubleQuote] ++ [closing] := by
  unfold openingTag
  rw [List.append_assoc _ [doubleQuote]]
  rfl

/-- The opening tag ends behind its label. -/
lemma tag_iff : (openingTag label).takeWhile (· ≠ closing) ++ [closing] = openingTag label ↔
    closing ∉ label := by
  rw [openingTag_eq, List.append_left_inj]
  constructor
  · intro h hmem
    have hnone := not_mem_takeWhile (c := closing)
      (units "<untrusted_data source=\"" ++ label ++ [doubleQuote] ++ [closing])
    rw [h] at hnone
    exact hnone (List.mem_append_left _ (List.mem_append_right _ hmem))
  · intro h
    refine takeWhile_stop fun hmem => ?_
    rcases List.mem_append.1 hmem with hmem | hmem
    · rcases List.mem_append.1 hmem with hmem | hmem
      · exact absurd hmem (by decide)
      · exact h hmem
    · exact absurd (List.mem_singleton.1 hmem) (by decide)

/-- The detection finds neither label in a sanitized text. -/
lemma undetected (text : Units) (others : InjectionLabel → Units → Bool) (maxLength : Nat) :
    InjectionLabel.roleSpoofSystem ∉
        detectInjectionPatterns others (sanitizeUntrustedText text maxLength) ∧
      InjectionLabel.delimiterSpoof ∉
        detectInjectionPatterns others (sanitizeUntrustedText text maxLength) := by
  unfold detectInjectionPatterns
  split
  · exact ⟨List.not_mem_nil, List.not_mem_nil⟩
  · refine ⟨fun hmem => ?_, fun hmem => ?_⟩
    · exact sanitize_no_roleSpoof text maxLength (roleSpoof_of_test (List.mem_filter.1 hmem).2)
    · have hspoof := (List.mem_filter.1 hmem).2
      rw [sanitize_no_delimiter] at hspoof
      cases hspoof

/-- Untrusted text is fenced unless a tag of a form that is not looked for comes through in front of
the length limit, or the label has a quote or a closing bracket. -/
theorem fenced_iff (text label : Units) : Fenced text label ↔
    (∀ a x, a ++ opening :: (x ++ [closing]) <+: text → closing ∉ x → Stray x →
      4000 < (neutralize (a ++ opening :: (x ++ [closing]))).length) ∧
        doubleQuote ∉ label ∧ closing ∉ label := by
  constructor
  · intro h
    have hbody := (h.body (fencedBody text) (wrap_body.2 rfl)).1
    refine ⟨fun a x htext hx hstray => ?_, quoted_iff.1 h.quoted, tag_iff.1 h.tag⟩
    by_contra hlength
    exact hbody (hasTag_fencedBody.2 (hasTag_take.2 ⟨a, x, htext, hx, hstray, Nat.le_of_not_lt hlength⟩))
  · rintro ⟨hstray, hquote, hclosing⟩
    refine ⟨fun body hbody => ?_, quoted_iff.2 hquote, tag_iff.2 hclosing, undetected text⟩
    rw [wrap_body.1 hbody]
    refine ⟨fun htag => ?_, fun line hline => fencedBody_lines hline⟩
    obtain ⟨a, x, htext, hx, hstrayed, hlength⟩ := hasTag_take.1 (hasTag_fencedBody.1 htag)
    exact absurd (hstray a x htext hx hstrayed) (Nat.not_lt.2 hlength)

/-- The opening tag that the sanitizer itself writes comes through. -/
theorem openingTag_comes_through :
    ¬ ∀ text label, Fenced text label := by
  intro h
  have hbody := ((h (units "<untrusted_data source=\"crm\">") []).body _ (wrap_body.2 rfl)).1
  refine hbody ⟨[lineFeed], units "untrusted_data source=\"crm\"", ?_, ?_, ?_⟩
  · decide
  · decide
  · decide

end fence

end NexusClaw.PromptSanitizer
