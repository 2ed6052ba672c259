import NexusClaw.AgentRuntime.PromptSanitizer

/-!
# What the patterns of the sanitizer find

Where a tag of the fence or a role marker begins in a text, and what is left of it when a part of the
text is put elsewhere.
-/

namespace NexusClaw.PromptSanitizer
open AuditChain (Units unit units decimalUnits)
open Permission.DataScope (isSpace)
open AgentMarkdownPolicy (lower dropToken lineFeed)

/-! ## What the patterns find -/

section patterns
variable {s rest name x : Units} {c : UInt16}

/-- A closed token is one of the tokens, and what is behind it is the rest of the text. -/
lemma closedToken_spec {tokens : List Units} {close : UInt16}
    (h : closedToken tokens close s = some (name, rest)) :
    name.map lower ∈ tokens ∧ close :: rest <:+ s ∧ name <:+: s := by
  unfold closedToken at h
  -- one of the tokens is read, then spaces, then the closing bracket
  cases hfound : dropFirst tokens (s.dropWhile isSpace) with
  | none =>
    rw [hfound] at h
    cases h
  | some found =>
    obtain ⟨token, tail⟩ := found
    obtain ⟨hsplit, hlower⟩ := dropFirst_spec hfound
    rw [hfound] at h
    dsimp only at h
    cases hrest : tail.dropWhile isSpace with
    | nil =>
      rw [hrest] at h
      cases h
    | cons c after =>
      rw [hrest] at h
      dsimp only at h
      split at h
      · rename_i hclose
        cases h
        have htail : tail <:+ s := (hsplit ▸ List.suffix_append name tail).trans
          (List.dropWhile_suffix isSpace)
        refine ⟨hlower, ?_, ?_⟩
        · rw [← hclose, ← hrest]
          exact (List.dropWhile_suffix isSpace).trans htail
        · exact (hsplit ▸ (List.prefix_append name tail).isInfix).trans
            (List.dropWhile_suffix isSpace).isInfix
      · cases h

/-- A slash is dropped from the front. -/
lemma optionalSlash_suffix (s : Units) : (optionalSlash s).2 <:+ s := by
  unfold optionalSlash
  split
  · exact List.tail_suffix s
  · exact List.suffix_refl s

/-- The rest behind a fence begins at its closing bracket. -/
lemma fenceBody_suffix (h : fenceBody s = some (name, rest)) : closing :: rest <:+ s := by
  obtain ⟨body, hbody, hpair⟩ := Option.map_eq_some_iff.1 h
  cases hpair
  exact (closedToken_spec hbody).2.1.trans (optionalSlash_suffix s)

/-- A match as long as what stands in front of the rest leaves the rest. -/
lemma drop_suffix_length (h : c :: rest <:+ s) (d : UInt16) :
    (d :: s).drop (s.length + 1 - rest.length) = rest ∧
      0 < s.length + 1 - rest.length ∧ s.length + 1 - rest.length ≤ s.length + 1 := by
  obtain ⟨before, rfl⟩ := h
  have hlength : (before ++ c :: rest).length + 1 - rest.length = before.length + 2 := by
    rw [List.length_append, List.length_cons]
    omega
  rw [hlength]
  refine ⟨?_, by omega, by rw [List.length_append, List.length_cons]; omega⟩
  rw [List.drop_succ_cons, List.append_cons]
  exact List.drop_left' (by simp)

/-- A fence is matched from its opening bracket on. -/
lemma fenceAt_opening (s : Units) : fenceAt (opening :: s) = (fenceBody s).map fun body =>
    (opening :: zeroWidthSpace :: body.1 ++ [closing], s.length + 1 - body.2.length) := by
  rw [fenceAt, if_pos rfl]

/-- It begins at no other unit. -/
lemma fenceAt_other (hc : c ≠ opening) : fenceAt (c :: s) = none :=
  if_neg hc

/-- A role is matched from the line feed in front of it. -/
lemma roleAt_lineFeed (s : Units) : roleAt (lineFeed :: s) = (roleBody s).map fun body =>
    (lineFeed :: body.1 ++ [longMark], s.length + 1 - body.2.length) := by
  rw [roleAt, if_pos rfl]

/-- It begins at no other unit. -/
lemma roleAt_other (hc : c ≠ lineFeed) : roleAt (c :: s) = none :=
  if_neg hc

/-- Every match of a fence consumes something. -/
lemma proper_fenceAt : Scan.Proper fenceAt := by
  intro s replacement n h
  cases s with
  | nil => cases h
  | cons c s =>
    by_cases hc : c = opening
    · rw [hc, fenceAt_opening] at h
      obtain ⟨body, hbody, hpair⟩ := Option.map_eq_some_iff.1 h
      cases hpair
      exact (drop_suffix_length (fenceBody_suffix hbody) c).2
    · rw [fenceAt_other hc] at h
      cases h

/-- Every match of a role consumes something. -/
lemma proper_roleAt : Scan.Proper roleAt := by
  intro s replacement n h
  cases s with
  | nil => cases h
  | cons c s =>
    by_cases hc : c = lineFeed
    · rw [hc, roleAt_lineFeed] at h
      obtain ⟨body, hbody, hpair⟩ := Option.map_eq_some_iff.1 h
      cases hpair
      exact (drop_suffix_length (closedToken_spec hbody).2.1 c).2
    · rw [roleAt_other hc] at h
      cases h

/-- Outside of brackets the text stays. -/
lemma breakFences_cons (hc : c ≠ opening) (s : Units) : breakFences (c :: s) = c :: breakFences s :=
  Scan.replace_none (fenceAt_other hc)

/-- At a bracket a fence is broken, or the text stays. -/
lemma breakFences_opening (s : Units) : breakFences (opening :: s) =
    match fenceBody s with
    | some (body, rest) => opening :: zeroWidthSpace :: body ++ closing :: breakFences rest
    | none => opening :: breakFences s := by
  cases hbody : fenceBody s with
  | none =>
    refine Scan.replace_none ?_
    rw [fenceAt_opening, hbody]
    rfl
  | some found =>
    obtain ⟨body, rest⟩ := found
    have hat : fenceAt (opening :: s) = some (opening :: zeroWidthSpace :: body ++ [closing],
        s.length + 1 - rest.length) := by
      rw [fenceAt_opening, hbody]
      rfl
    unfold breakFences
    rw [Scan.replace_some proper_fenceAt hat,
      (drop_suffix_length (fenceBody_suffix hbody) opening).1, List.append_assoc]
    rfl

/-- The role markers after a line feed. -/
def defang (s : Units) : Units :=
  Scan.replace roleAt s

/-- Within a line the text stays. -/
lemma defang_cons (hc : c ≠ lineFeed) (s : Units) : defang (c :: s) = c :: defang s :=
  Scan.replace_none (roleAt_other hc)

/-- At the start of a line a role loses its colon, or the text stays. -/
lemma defang_lineFeed (s : Units) : defang (lineFeed :: s) =
    match roleBody s with
    | some (role, rest) => lineFeed :: role ++ longMark :: defang rest
    | none => lineFeed :: defang s := by
  cases hbody : roleBody s with
  | none =>
    refine Scan.replace_none ?_
    rw [roleAt_lineFeed, hbody]
    rfl
  | some found =>
    obtain ⟨role, rest⟩ := found
    have hat : roleAt (lineFeed :: s) = some (lineFeed :: role ++ [longMark],
        s.length + 1 - rest.length) := by
      rw [roleAt_lineFeed, hbody]
      rfl
    unfold defang
    rw [Scan.replace_some proper_roleAt hat,
      (drop_suffix_length (closedToken_spec hbody).2.1 lineFeed).1, List.append_assoc]
    rfl

/-- The first line has no line feed in front of it. -/
lemma defangRoles_eq (text : Units) : defangRoles text =
    match roleBody text with
    | some (role, rest) => role ++ longMark :: defang rest
    | none => defang text :=
  rfl

/-! ## Parts of a text -/

/-- What is left of a text that goes on. -/
lemma length_append_sub {t rest : Units} (h : c :: rest <:+ t) (later : Units) :
    (t ++ later).length + 1 - (rest ++ later).length = t.length + 1 - rest.length := by
  have hle := h.length_le
  rw [List.length_cons] at hle
  rw [List.length_append, List.length_append]
  omega

/-- A role marker stands in front of a bracket or behind it. -/
lemma defang_append (hc : Inert roles colon c) (s later : Units) :
    defang (s ++ c :: later) = defang s ++ c :: defang later := by
  have hne : c ≠ lineFeed := by
    rintro rfl
    exact absurd hc.space (by decide)
  have hlater : Scan.replace roleAt (c :: later) = c :: defang later := defang_cons hne later
  unfold defang at hlater ⊢
  rw [Scan.replace_append proper_roleAt, hlater]
  intro t ht _
  cases t with
  | nil => exact absurd rfl ht
  | cons d t =>
    rw [List.cons_append]
    by_cases hd : d = lineFeed
    · rw [hd, roleAt_lineFeed, roleAt_lineFeed, roleBody, roleBody, closedToken_append hc,
        Option.map_map]
      refine Option.map_congr fun body hbody => ?_
      rw [Function.comp_apply, length_append_sub (closedToken_spec hbody).2.1]
    · rw [roleAt_other hd, roleAt_other hd]

/-- The marker at the beginning, too. -/
lemma defangRoles_append (hc : Inert roles colon c) (s later : Units) :
    defangRoles (s ++ c :: later) = defangRoles s ++ c :: defang later := by
  rw [defangRoles_eq, defangRoles_eq, roleBody, roleBody, closedToken_append hc]
  cases closedToken roles colon s with
  | none => exact defang_append hc s later
  | some body =>
    dsimp only [Option.map_some]
    rw [defang_append hc, List.append_assoc]
    rfl

/-- A unit that is no slash does not become one. -/
lemma optionalSlash_append (hc : c ≠ slash) (s later : Units) :
    optionalSlash (s ++ c :: later) = ((optionalSlash s).1, (optionalSlash s).2 ++ c :: later) := by
  unfold optionalSlash
  cases s with
  | nil =>
    rw [List.nil_append, if_neg (by simpa using hc), if_neg (by simp)]
    rfl
  | cons d s =>
    rw [List.cons_append, List.head?_cons, List.head?_cons]
    split <;> rfl

/-- A unit that stands in no fence ends the reading of one. -/
lemma fenceBody_append (hc : Inert fenceNames closing c) (hslash : c ≠ slash) (s later : Units) :
    fenceBody (s ++ c :: later) = (fenceBody s).map fun body => (body.1, body.2 ++ c :: later) := by
  unfold fenceBody
  rw [optionalSlash_append hslash, closedToken_append hc, Option.map_map, Option.map_map]
  rfl

/-- A tag ends in front of the next opening bracket. -/
lemma breakFences_append (s later : Units) :
    breakFences (s ++ opening :: later) = breakFences s ++ breakFences (opening :: later) := by
  unfold breakFences
  refine Scan.replace_append proper_fenceAt fun t ht _ => ?_
  cases t with
  | nil => exact absurd rfl ht
  | cons d t =>
    rw [List.cons_append]
    by_cases hd : d = opening
    · rw [hd, fenceAt_opening, fenceAt_opening, fenceBody_append inert_fence_opening (by decide),
        Option.map_map]
      refine Option.map_congr fun body hbody => ?_
      rw [Function.comp_apply, length_append_sub (fenceBody_suffix hbody)]
    · rw [fenceAt_other hd, fenceAt_other hd]

/-- A text without an opening bracket has no tag. -/
lemma breakFences_plain (h : opening ∉ s) : breakFences s = s := by
  induction s with
  | nil => rfl
  | cons c s ih =>
    obtain ⟨hc, hs⟩ := not_or.1 (List.mem_cons.not.1 h)
    rw [breakFences_cons (Ne.symm hc), ih hs]

/-- What an opening bracket and the text up to the next one become. -/
def breakPiece (s : Units) : Units :=
  match fenceBody s with
  | some (body, rest) => zeroWidthSpace :: body ++ closing :: rest
  | none => s

/-- A piece between two brackets is broken on its own. -/
lemma breakFences_piece (h : opening ∉ s) :
    breakFences (opening :: s) = opening :: breakPiece s := by
  rw [breakFences_opening]
  unfold breakPiece
  cases hbody : fenceBody s with
  | none => exact congrArg (opening :: ·) (breakFences_plain h)
  | some found =>
    obtain ⟨body, rest⟩ := found
    have hrest : opening ∉ rest := fun hmem =>
      h ((fenceBody_suffix hbody).subset (List.mem_cons_of_mem _ hmem))
    dsimp only
    rw [breakFences_plain hrest]
    rfl

/-- The name of a fence is taken from the text. -/
lemma fenceBody_mem (hbody : fenceBody s = some (name, rest)) (hmem : c ∈ name) : c ∈ s := by
  obtain ⟨found, hfound, hpair⟩ := Option.map_eq_some_iff.1 hbody
  cases hpair
  rcases List.mem_append.1 hmem with hmem | hmem
  · unfold optionalSlash at hmem
    split at hmem
    · rename_i hslash
      rw [List.mem_singleton.1 hmem]
      exact List.mem_of_head? hslash
    · cases hmem
  · exact (optionalSlash_suffix s).subset ((closedToken_spec hfound).2.2.subset hmem)

/-- A broken piece has no bracket of its own. -/
lemma breakPiece_plain (h : opening ∉ s) : opening ∉ breakPiece s := by
  unfold breakPiece
  cases hbody : fenceBody s with
  | none => exact h
  | some found =>
    obtain ⟨body, rest⟩ := found
    intro hmem
    rcases List.mem_cons.1 hmem with heq | hmem
    · exact absurd heq (by decide)
    · rcases List.mem_append.1 hmem with hmem | hmem
      · exact h (fenceBody_mem hbody hmem)
      · rcases List.mem_cons.1 hmem with heq | hmem
        · exact absurd heq (by decide)
        · exact h ((fenceBody_suffix hbody).subset (List.mem_cons_of_mem _ hmem))

/-- Pieces that each begin with an opening bracket. -/
def bracketed (pieces : List Units) : Units :=
  pieces.flatMap (opening :: ·)

/-- One piece in front of the others. -/
lemma bracketed_cons (piece : Units) (pieces : List Units) :
    bracketed (piece :: pieces) = opening :: (piece ++ bracketed pieces) :=
  rfl

/-- The pieces of two texts. -/
lemma bracketed_append (pieces later : List Units) :
    bracketed (pieces ++ later) = bracketed pieces ++ bracketed later :=
  List.flatMap_append

/-- What follows a piece begins with an opening bracket, or there is nothing. -/
lemma bracketed_cases (pieces : List Units) :
    bracketed pieces = [] ∨ ∃ later, bracketed pieces = opening :: later := by
  cases pieces with
  | nil => exact .inl rfl
  | cons piece pieces => exact .inr ⟨_, rfl⟩

/-- The fences are broken piece by piece. -/
lemma breakFences_bracketed {pieces : List Units} (hpieces : ∀ piece ∈ pieces, opening ∉ piece) :
    breakFences (bracketed pieces) = bracketed (pieces.map breakPiece) := by
  induction pieces with
  | nil => rfl
  | cons piece pieces ih =>
    obtain ⟨hpiece, hpieces⟩ := List.forall_mem_cons.1 hpieces
    have hparts : breakFences (opening :: piece ++ bracketed pieces) =
        breakFences (opening :: piece) ++ breakFences (bracketed pieces) := by
      rcases bracketed_cases pieces with hnil | ⟨later, hlater⟩
      · rw [hnil, List.append_nil]
        exact (List.append_nil _).symm
      · rw [hlater]
        exact breakFences_append _ _
    rw [bracketed_cons, ← List.cons_append, hparts, breakFences_piece hpiece, ih hpieces]
    rfl

/-- The roles are defanged piece by piece. -/
lemma defang_bracketed (pieces : List Units) :
    defang (bracketed pieces) = bracketed (pieces.map defang) := by
  induction pieces with
  | nil => rfl
  | cons piece pieces ih =>
    have hparts : defang (piece ++ bracketed pieces) = defang piece ++ defang (bracketed pieces) := by
      rcases bracketed_cases pieces with hnil | ⟨later, hlater⟩
      · rw [hnil, List.append_nil]
        exact (List.append_nil _).symm
      · rw [hlater, defang_append inert_role_opening, defang_cons (by decide)]
    rw [bracketed_cons, defang_cons (by decide), hparts, ih]
    rfl

/-- A text is neutralized piece by piece. -/
lemma neutralize_pieces {first : Units} {pieces : List Units} (hfirst : opening ∉ first)
    (hpieces : ∀ piece ∈ pieces, opening ∉ piece) :
    neutralize (first ++ bracketed pieces) =
      defangRoles first ++ bracketed (pieces.map fun piece => defang (breakPiece piece)) := by
  have hbreak : breakFences (first ++ bracketed pieces) =
      first ++ bracketed (pieces.map breakPiece) := by
    rcases bracketed_cases pieces with hnil | ⟨later, hlater⟩
    · have hpieces : pieces = [] := by
        cases pieces with
        | nil => rfl
        | cons piece pieces => cases hnil
      rw [hpieces]
      exact breakFences_plain (by simpa [bracketed] using hfirst)
    · rw [hlater, breakFences_append, ← hlater, breakFences_bracketed hpieces, breakFences_plain hfirst]
  unfold neutralize
  rw [hbreak]
  have hdefang := defang_bracketed (pieces.map breakPiece)
  rw [List.map_map] at hdefang
  -- the pieces are broken one by one, and the roles in front of them stay apart
  rcases bracketed_cases (pieces.map breakPiece) with hnil | ⟨later, hlater⟩
  · rw [hnil] at hdefang ⊢
    rw [show (pieces.map fun piece => defang (breakPiece piece)) =
      pieces.map (defang ∘ breakPiece) from rfl, ← hdefang, List.append_nil]
    exact (List.append_nil _).symm
  · rw [show (pieces.map fun piece => defang (breakPiece piece)) =
      pieces.map (defang ∘ breakPiece) from rfl, ← hdefang, hlater,
      defangRoles_append inert_role_opening, defang_cons (by decide)]

end patterns

/-! ## Letters -/

section letters
variable {tokens : List Units} {name : Units} {c : UInt16}

/-- White space has no upper case. -/
lemma lower_isSpace (h : isSpace c = true) : lower c = c := by
  unfold lower
  refine if_neg fun hletter => ?_
  rw [Bool.and_eq_true, decide_eq_true_iff, decide_eq_true_iff] at hletter
  have hlow : 65 ≤ c.toNat := hletter.1
  have hhigh : c.toNat ≤ 90 := hletter.2
  unfold isSpace at h
  simp only [Bool.or_eq_true, Bool.and_eq_true, decide_eq_true_iff, beq_iff_eq, ← UInt16.toNat_inj,
    UInt16.le_iff_toNat_le, UInt16.reduceToNat] at h
  omega

/-- A character of a token is no white space. -/
lemma token_char (htokens : ∀ token ∈ tokens, ∀ d ∈ token, isSpace d = false)
    (hname : name.map lower ∈ tokens) (hc : c ∈ name) : isSpace c = false := by
  have hlower := htokens _ hname (lower c) (List.mem_map_of_mem hc)
  by_contra hspace
  rw [Bool.not_eq_false] at hspace
  rw [lower_isSpace hspace, hspace] at hlower
  cases hlower

/-- No role has white space in it. -/
lemma role_char (hname : name.map lower ∈ roles) (hc : c ∈ name) : isSpace c = false :=
  token_char (by decide) hname hc

/-- A character that is its own lower case and in no token is in none as it is written. -/
lemma not_mem_token (hlower : lower c = c) (htokens : ∀ token ∈ tokens, c ∉ token)
    (hname : name.map lower ∈ tokens) : c ∉ name := by
  intro hc
  refine htokens _ hname ?_
  rw [← hlower]
  exact List.mem_map_of_mem hc

/-- A name that is one of the tokens is not empty. -/
lemma token_ne_nil (htokens : [] ∉ tokens) (hname : name.map lower ∈ tokens) : name ≠ [] := by
  rintro rfl
  exact htokens hname

/-- The head of a role as it is written. -/
lemma role_head (hname : name.map lower ∈ roles) :
    ∃ c rest, name = c :: rest ∧ isSpace c = false ∧ c ≠ slash := by
  obtain ⟨c, rest, rfl⟩ := List.exists_cons_of_ne_nil (token_ne_nil (by decide) hname)
  refine ⟨c, rest, rfl, role_char hname (List.mem_cons_self ..), ?_⟩
  rintro rfl
  exact not_mem_token (by decide) (by decide) hname (List.mem_cons_self ..)

end letters

/-! ## Role markers -/

section markers
variable {s rest name : Units} {c : UInt16}

/-- White space in front of a role is skipped. -/
lemma roleBody_dropWhile (s : Units) : roleBody (s.dropWhile isSpace) = roleBody s := by
  unfold roleBody closedToken
  rw [List.dropWhile_idempotent]

/-- What a role marker consists of. -/
lemma roleBody_cons_space (hc : isSpace c = true) (s : Units) : roleBody (c :: s) = roleBody s := by
  rw [← roleBody_dropWhile, List.dropWhile_cons_of_pos hc, roleBody_dropWhile]

/-- A text whose first character that is no white space begins no role has no marker there. -/
lemma roleBody_head {role : Units} (h : roleBody s = some (role, rest)) :
    ∃ after, s.dropWhile isSpace = role ++ after := by
  unfold roleBody closedToken at h
  cases hfound : dropFirst roles (s.dropWhile isSpace) with
  | none =>
    rw [hfound] at h
    cases h
  | some found =>
    obtain ⟨token, after⟩ := found
    refine ⟨after, ?_⟩
    rw [hfound] at h
    dsimp only at h
    -- the token is returned where the closing mark stands behind it
    have htoken : token = role := by
      cases hrest : after.dropWhile isSpace with
      | nil =>
        rw [hrest] at h
        cases h
      | cons d tail =>
        rw [hrest] at h
        dsimp only at h
        split at h
        · cases h
          rfl
        · cases h
    rw [← htoken]
    exact (dropFirst_spec hfound).1

/-- Defanging keeps the first unit. -/
lemma head?_defang (s : Units) : (defang s).head? = s.head? := by
  cases s with
  | nil => rfl
  | cons c s =>
    by_cases hc : c = lineFeed
    · rw [hc, defang_lineFeed]
      cases roleBody s with
      | none => rfl
      | some found => rfl
    · rw [defang_cons hc]
      rfl

/-- Nothing but colons becomes anything new. -/
lemma defang_subset (hc : c ≠ longMark) (h : c ∈ defang s) : c ∈ s := by
  unfold defang at h
  -- a unit is copied from the text, or belongs to a role and the mark behind it
  induction s using Scan.replace_induction proper_roleAt with
  | nil => cases h
  | copy d s hnone ih =>
    rw [Scan.replace_none hnone] at h
    rcases List.mem_cons.1 h with rfl | h
    · exact List.mem_cons_self ..
    · exact List.mem_cons_of_mem _ (ih h)
  | change s replacement n hsome ih =>
    rw [Scan.replace_some proper_roleAt hsome] at h
    rcases List.mem_append.1 h with hreplaced | hlater
    · clear h
      cases s with
      | nil => cases hsome
      | cons d s =>
        by_cases hd : d = lineFeed
        · rw [hd, roleAt_lineFeed] at hsome
          obtain ⟨body, hbody, hpair⟩ := Option.map_eq_some_iff.1 hsome
          cases hpair
          rcases List.mem_cons.1 hreplaced with rfl | hbehind
          · rw [hd]
            exact List.mem_cons_self ..
          · rcases List.mem_append.1 hbehind with hrole | hmark
            · exact List.mem_cons_of_mem _ ((closedToken_spec hbody).2.2.subset hrole)
            · exact absurd (List.mem_singleton.1 hmark) hc
        · rw [roleAt_other hd] at hsome
          cases hsome
    · exact List.mem_of_mem_drop (ih hlater)

/-- Apart from the mark, a defanged text has the units of the text. -/
lemma defangRoles_subset (hc : c ≠ longMark) (h : c ∈ defangRoles s) : c ∈ s := by
  rw [defangRoles_eq] at h
  cases hbody : roleBody s with
  | none =>
    rw [hbody] at h
    exact defang_subset hc h
  | some found =>
    obtain ⟨role, rest⟩ := found
    rw [hbody] at h
    rcases List.mem_append.1 h with hrole | hbehind
    · exact (closedToken_spec hbody).2.2.subset hrole
    · rcases List.mem_cons.1 hbehind with hmark | hrest
      · exact absurd hmark hc
      · exact (closedToken_spec hbody).2.1.subset (List.mem_cons_of_mem _ (defang_subset hc hrest))

/-- A role marker after a line feed in the white space at the head of a text. -/
def markedHead (s : Units) : Bool :=
  lineFeed ∈ s.takeWhile isSpace && (roleBody s).isSome

/-- The white space at the head stays, unless a role marker follows a line feed in it. -/
lemma dropWhile_defang (s : Units) :
    markedHead s = false ∧ (defang s).dropWhile isSpace = defang (s.dropWhile isSpace) ∨
      markedHead s = true ∧ ∃ role rest, roleBody s = some (role, rest) ∧
        (defang s).dropWhile isSpace = role ++ longMark :: defang rest := by
  -- induction over the leading spaces: a line feed among them may begin a role
  induction s with
  | nil => exact .inl ⟨rfl, rfl⟩
  | cons c s ih =>
    cases hc : isSpace c with
    | false =>
      have hne : c ≠ lineFeed := by
        rintro rfl
        exact absurd hc (by decide)
      refine .inl ⟨?_, ?_⟩
      · unfold markedHead
        rw [List.takeWhile_cons_of_neg (by simp [hc])]
        rfl
      · rw [defang_cons hne, List.dropWhile_cons_of_neg (by simp [hc]),
          List.dropWhile_cons_of_neg (by simp [hc]), defang_cons hne]
    | true =>
      by_cases hne : c = lineFeed
      · cases hbody : roleBody s with
        | some found =>
          obtain ⟨role, rest⟩ := found
          refine .inr ⟨?_, role, rest, ?_, ?_⟩
          · unfold markedHead
            rw [List.takeWhile_cons_of_pos hc, roleBody_cons_space hc, hbody, hne]
            simp
          · rw [roleBody_cons_space hc, hbody]
          · obtain ⟨d, role', hrole, hd, -⟩ := role_head (closedToken_spec hbody).1
            rw [hne, defang_lineFeed, hbody]
            dsimp only
            rw [List.cons_append, List.dropWhile_cons_of_pos (by decide), hrole, List.cons_append,
              List.dropWhile_cons_of_neg (by simp [hd])]
        | none =>
          have hmarked : markedHead s = false := by
            unfold markedHead
            rw [hbody]
            exact Bool.and_false _
          refine .inl ⟨?_, ?_⟩
          · unfold markedHead
            rw [roleBody_cons_space hc, hbody]
            exact Bool.and_false _
          · rcases ih with ⟨-, hdrop⟩ | ⟨htrue, -⟩
            · rw [hne, defang_lineFeed, hbody]
              dsimp only
              rw [List.dropWhile_cons_of_pos (by decide), List.dropWhile_cons_of_pos (by decide), hdrop]
            · rw [hmarked] at htrue
              cases htrue
      · have hmarked : markedHead (c :: s) = markedHead s := by
          unfold markedHead
          rw [List.takeWhile_cons_of_pos hc, roleBody_cons_space hc]
          simp [Ne.symm hne]
        rw [hmarked, defang_cons hne, List.dropWhile_cons_of_pos hc, List.dropWhile_cons_of_pos hc,
          roleBody_cons_space hc]
        exact ih

/-- A token is found through the changes behind it. -/
lemma dropToken_defang {token : Units} (htoken : lineFeed ∉ token) (s : Units) :
    dropToken token (defang s) = (dropToken token s).map defang ∧
      ∀ rest, dropToken token s = some rest →
        (defang s).take token.length = s.take token.length := by
  induction token generalizing s with
  | nil => exact ⟨rfl, fun _ _ => rfl⟩
  | cons t token ih =>
    obtain ⟨ht, htoken⟩ := not_or.1 (List.mem_cons.not.1 htoken)
    cases s with
    | nil => exact ⟨rfl, fun _ h => by cases h⟩
    | cons c s =>
      -- no token goes past a line feed
      by_cases hc : c = lineFeed
      · have hother : lower lineFeed ≠ t := by
          rw [show lower lineFeed = lineFeed from by decide]
          exact ht
        obtain ⟨after, hafter⟩ : ∃ after, defang (lineFeed :: s) = lineFeed :: after := by
          have hhead := head?_defang (lineFeed :: s)
          exact List.head?_eq_some_iff.1 hhead
        rw [hc, hafter, dropToken, dropToken, if_neg hother, if_neg hother]
        exact ⟨rfl, fun _ h => by cases h⟩
      · rw [defang_cons hc, dropToken, dropToken]
        obtain ⟨hdrop, htake⟩ := ih htoken s
        split
        · refine ⟨hdrop, fun rest hrest => ?_⟩
          rw [List.length_cons, List.take_succ_cons, List.take_succ_cons, htake rest hrest]
        · exact ⟨rfl, fun _ h => by cases h⟩

/-- A name of a fence is read over defanged roles as over the roles. -/
lemma dropFirst_defang (s : Units) : dropFirst fenceNames (defang s) =
    (dropFirst fenceNames s).map fun found => (found.1, defang found.2) :=
  dropFirst_map (fun token htoken => dropToken_defang
    ((by decide : ∀ token ∈ fenceNames, lineFeed ∉ token) token htoken)) s

end markers

end NexusClaw.PromptSanitizer
