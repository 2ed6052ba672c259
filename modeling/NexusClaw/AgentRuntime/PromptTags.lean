import NexusClaw.AgentRuntime.PromptPatterns

/-!
# Tags in sanitized text

No tag that the sanitizer looks for is left when its brackets are broken and the replacements are
made.
-/

namespace NexusClaw.PromptSanitizer
open AuditChain (Units unit units decimalUnits)
open Permission.DataScope (isSpace)
open AgentMarkdownPolicy (lower dropToken lineFeed)

/-! ## Tags -/

/-- What follows white space and a slash, if there is a slash. -/
def afterSlash (s : Units) : Units :=
  if (s.dropWhile isSpace).head? = some slash then (s.dropWhile isSpace).tail else s

/-- What may stand between the brackets of a tag:
`\s*\/?\s*(untrusted_data|tool_result|system)([\s\/][^>]*)?`. -/
def tagInside (s : Units) : Bool :=
  match dropFirst fenceNames ((afterSlash s).dropWhile isSpace) with
  | some (_, rest) => rest.head?.all fun c => isSpace c || c == slash
  | none => false

/-- A tag with or without attributes stands in a text. -/
def HasTag (s : Units) : Prop :=
  ∃ a x, a ++ opening :: (x ++ [closing]) <+: s ∧ closing ∉ x ∧ tagInside x = true

/-- What is between the brackets of a tag and comes through both replacements: it is none of the tags
that are looked for, and its name is no role marker that follows a line feed. -/
def Stray (x : Units) : Prop :=
  tagInside x = true ∧ fenceBody (x ++ [closing]) = none ∧ markedHead (afterSlash x) = false

section tags
variable {s x rest name : Units} {c : UInt16}

/-- So is the first unit that is no white space. -/
lemma head?_dropWhile_defang (s : Units) :
    ((defang s).dropWhile isSpace).head? = (s.dropWhile isSpace).head? := by
  rcases dropWhile_defang s with ⟨-, hdrop⟩ | ⟨-, role, rest, hbody, hdrop⟩
  · rw [hdrop, head?_defang]
  · obtain ⟨after, hafter⟩ := roleBody_head hbody
    obtain ⟨d, role', hrole, -, -⟩ := role_head (closedToken_spec hbody).1
    rw [hdrop, hafter, hrole]
    rfl

/-- So is what stands behind a slash. -/
lemma afterSlash_defang (s : Units) : afterSlash (defang s) = defang (afterSlash s) := by
  unfold afterSlash
  rw [head?_dropWhile_defang]
  split
  · rename_i hslash
    obtain ⟨after, hafter⟩ := List.head?_eq_some_iff.1 hslash
    rcases dropWhile_defang s with ⟨-, hdrop⟩ | ⟨-, role, rest, hbody, -⟩
    · rw [hdrop, hafter, defang_cons (by decide)]
      rfl
    · obtain ⟨tail, htail⟩ := roleBody_head hbody
      obtain ⟨d, role', hrole, -, hd⟩ := role_head (closedToken_spec hbody).1
      rw [htail, hrole, List.cons_append, List.head?_cons, Option.some_inj] at hslash
      exact absurd hslash hd
  · rfl

/-- The name of a tag is found through the changes, and nothing reads as its end where it was a role
marker. -/
lemma dropFirst_dropWhile_defang (s : Units) :
    markedHead s = false ∧ dropFirst fenceNames ((defang s).dropWhile isSpace) =
        (dropFirst fenceNames (s.dropWhile isSpace)).map (fun found => (found.1, defang found.2)) ∨
      markedHead s = true ∧ ∀ name rest,
        dropFirst fenceNames ((defang s).dropWhile isSpace) = some (name, rest) →
          ∃ c more, rest = c :: more ∧ isSpace c = false ∧ c ≠ slash := by
  rcases dropWhile_defang s with ⟨hmarked, hdrop⟩ | ⟨hmarked, role, after, hbody, hdrop⟩
  · rw [hdrop, dropFirst_defang]
    exact .inl ⟨hmarked, rfl⟩
  · refine .inr ⟨hmarked, fun name rest hfound => ?_⟩
    have hrole := (closedToken_spec hbody).1
    rw [hdrop, dropFirst_append (by decide)] at hfound
    obtain ⟨found, hname, hpair⟩ := Option.map_eq_some_iff.1 hfound
    cases hpair
    obtain ⟨hsplit, -⟩ := dropFirst_spec hname
    cases hrest : found.2 with
    | nil => exact ⟨longMark, defang after, rfl, by decide, by decide⟩
    | cons d more =>
      have hd : d ∈ role := by
        rw [hsplit, hrest]
        exact List.mem_append_right _ (List.mem_cons_self ..)
      refine ⟨d, _, rfl, role_char hrole hd, ?_⟩
      rintro rfl
      exact not_mem_token (by decide) (by decide) hrole hd

/-- The role markers that are changed are the only tags that go. -/
lemma tagInside_defang (s : Units) :
    tagInside (defang s) = (tagInside s && !markedHead (afterSlash s)) := by
  unfold tagInside
  rw [afterSlash_defang]
  rcases dropFirst_dropWhile_defang (afterSlash s) with ⟨hmarked, hfound⟩ | ⟨hmarked, hend⟩
  · rw [hfound, hmarked, Bool.not_false, Bool.and_true]
    cases dropFirst fenceNames ((afterSlash s).dropWhile isSpace) with
    | none => rfl
    | some found =>
      dsimp only [Option.map_some]
      rw [head?_defang]
  · rw [hmarked, Bool.not_true, Bool.and_false]
    cases hfound : dropFirst fenceNames ((defang (afterSlash s)).dropWhile isSpace) with
    | none => rfl
    | some found =>
      obtain ⟨c, more, hrest, hspace, hslash⟩ := hend found.1 found.2 hfound
      dsimp only
      rw [hrest, List.head?_cons, Option.all_some, hspace, Bool.false_or]
      exact beq_eq_false_iff_ne.2 hslash

/-- What is between the brackets of a tag that is looked for. -/
def fenceInside (s : Units) : Bool :=
  match dropFirst fenceNames ((optionalSlash s).2.dropWhile isSpace) with
  | some (_, rest) => (rest.dropWhile isSpace).isEmpty
  | none => false

/-- Up to a closing bracket a fence is decided by what stands in front of the bracket. -/
lemma fenceBody_inside (hx : closing ∉ x) (later : Units) :
    (fenceBody (x ++ closing :: later)).map Prod.snd =
      bif fenceInside x then some later else none := by
  unfold fenceBody fenceInside closedToken
  rw [optionalSlash_append (by decide), dropWhile_append_stop (by decide),
    dropFirst_append (by decide)]
  -- behind the name only spaces may stand in front of the bracket
  cases hfound : dropFirst fenceNames ((optionalSlash x).2.dropWhile isSpace) with
  | none => rfl
  | some found =>
    dsimp only [Option.map_some]
    rw [dropWhile_append_stop (by decide)]
    by_cases hrest : found.2.dropWhile isSpace = []
    · rw [hrest]
      rfl
    · obtain ⟨d, more, hrest⟩ := List.exists_cons_of_ne_nil hrest
      have hd : d ∈ x := by
        have hmem : d ∈ found.2 := (List.dropWhile_suffix isSpace).subset
          (hrest ▸ List.mem_cons_self ..)
        have hsub : found.2 <:+ (optionalSlash x).2.dropWhile isSpace :=
          (dropFirst_spec hfound).1 ▸ List.suffix_append _ _
        exact (optionalSlash_suffix x).subset
          ((List.dropWhile_suffix isSpace).subset (hsub.subset hmem))
      have hne : d ≠ closing := by
        rintro rfl
        exact hx hd
      rw [hrest, List.cons_append]
      dsimp only
      rw [if_neg hne]
      rfl

/-- There is no fence if what is in front of the bracket is none. -/
lemma fenceBody_eq_none (hx : closing ∉ x) (later : Units) :
    fenceBody (x ++ closing :: later) = none ↔ fenceInside x = false := by
  have hmap := fenceBody_inside hx later
  rw [← Option.map_eq_none_iff (f := Prod.snd), hmap]
  cases fenceInside x <;> simp

/-- Nothing follows a tag whose bracket is the first and the last one. -/
lemma fenceBody_last (hx : closing ∉ x) (h : fenceBody (x ++ [closing]) = some (name, rest)) :
    rest = [] := by
  have hend := fenceBody_inside hx []
  rw [h] at hend
  cases hinside : fenceInside x with
  | false =>
    rw [hinside] at hend
    cases hend
  | true =>
    rw [hinside] at hend
    exact Option.some_inj.1 hend

/-- A slash is read over defanged roles as over the roles. -/
lemma optionalSlash_defang (s : Units) :
    optionalSlash (defang s) = ((optionalSlash s).1, defang (optionalSlash s).2) := by
  unfold optionalSlash
  rw [head?_defang]
  split
  · rename_i hslash
    obtain ⟨after, rfl⟩ := List.head?_eq_some_iff.1 hslash
    rw [defang_cons (by decide)]
    rfl
  · rfl

/-- No tag that is looked for arises. -/
lemma fenceInside_defang (h : fenceInside s = false) : fenceInside (defang s) = false := by
  unfold fenceInside at h ⊢
  rw [optionalSlash_defang]
  rcases dropFirst_dropWhile_defang (optionalSlash s).2 with ⟨-, hfound⟩ | ⟨-, hend⟩
  · rw [hfound]
    cases hname : dropFirst fenceNames ((optionalSlash s).2.dropWhile isSpace) with
    | none => rfl
    | some found =>
      rw [hname] at h
      dsimp only [Option.map_some] at h ⊢
      rw [List.isEmpty_eq_false_iff] at h ⊢
      intro hnil
      have hhead := head?_dropWhile_defang found.2
      rw [hnil] at hhead
      exact h (List.head?_eq_none_iff.1 hhead.symm)
  · cases hfound : dropFirst fenceNames ((defang (optionalSlash s).2).dropWhile isSpace) with
    | none => rfl
    | some found =>
      obtain ⟨c, more, hrest, hspace, -⟩ := hend found.1 found.2 hfound
      dsimp only
      rw [hrest, List.dropWhile_cons_of_neg (by simp [hspace])]
      rfl

/-! ## Brackets and the replacements -/

/-- A match ends at its closing character. -/
lemma closedToken_close {tokens : List Units} {close : UInt16} (hspace : isSpace close = false)
    (htokens : ∀ token ∈ tokens, lower close ∉ token) (s later : Units) :
    closedToken tokens close (s ++ close :: later) =
      (closedToken tokens close (s ++ [close])).map fun found => (found.1, found.2 ++ later) := by
  unfold closedToken
  rw [dropWhile_append_stop hspace, dropWhile_append_stop hspace, dropFirst_append htokens,
    dropFirst_append htokens]
  cases dropFirst tokens (s.dropWhile isSpace) with
  | none => rfl
  | some found =>
    dsimp only [Option.map_some]
    rw [dropWhile_append_stop hspace, dropWhile_append_stop hspace]
    cases found.2.dropWhile isSpace with
    | nil =>
      dsimp only [List.nil_append]
      rw [if_pos rfl, if_pos rfl]
      rfl
    | cons d rest =>
      dsimp only [List.cons_append]
      split
      · rw [Option.map_some, List.append_assoc]
        rfl
      · rfl

/-- What follows a closing bracket does not matter. -/
lemma fenceBody_close (s later : Units) : fenceBody (s ++ closing :: later) =
    (fenceBody (s ++ [closing])).map fun body => (body.1, body.2 ++ later) := by
  unfold fenceBody
  rw [optionalSlash_append (by decide), optionalSlash_append (by decide),
    closedToken_close (by decide) (by decide), Option.map_map, Option.map_map]
  rfl

/-- A tag ends at a closing bracket. -/
lemma breakFences_close (s later : Units) : breakFences (s ++ closing :: later) =
    breakFences (s ++ [closing]) ++ breakFences later := by
  rw [List.append_cons]
  unfold breakFences
  refine Scan.replace_append proper_fenceAt fun t ht hsuffix => ?_
  rcases List.suffix_concat_iff.1 hsuffix with hnil | ⟨front, rfl, -⟩
  · exact absurd hnil ht
  · cases front with
    | nil => rfl
    | cons d front =>
      rw [List.append_assoc, List.singleton_append, List.cons_append, List.cons_append]
      by_cases hd : d = opening
      · rw [hd, fenceAt_opening, fenceAt_opening, fenceBody_close, Option.map_map]
        refine Option.map_congr fun body hbody => ?_
        have hlength := length_append_sub (fenceBody_suffix hbody) later
        rw [List.append_assoc, List.singleton_append] at hlength
        rw [Function.comp_apply, hlength]
      · rw [fenceAt_other hd, fenceAt_other hd]

/-- The name of a fence has no closing bracket. -/
lemma closing_not_mem_fenceBody (h : fenceBody s = some (name, rest)) : closing ∉ name := by
  obtain ⟨found, hfound, hpair⟩ := Option.map_eq_some_iff.1 h
  cases hpair
  intro hmem
  rcases List.mem_append.1 hmem with hmem | hmem
  · unfold optionalSlash at hmem
    split at hmem
    · exact absurd (List.mem_singleton.1 hmem) (by decide)
    · cases hmem
  · exact not_mem_token (by decide) (by decide) (closedToken_spec hfound).1 hmem

/-- Up to a closing bracket. -/
lemma breakFences_inside (hx : closing ∉ x) :
    ∃ z, breakFences (x ++ [closing]) = z ++ [closing] ∧ closing ∉ z ∧ z.head? = x.head? := by
  induction x with
  | nil => exact ⟨[], breakFences_plain (by decide), hx, rfl⟩
  | cons c x ih =>
    obtain ⟨hc, hx⟩ := not_or.1 (List.mem_cons.not.1 hx)
    obtain ⟨z, hz, hclosing, -⟩ := ih hx
    have hcopy : closing ∉ c :: z := List.not_mem_cons_of_ne_of_not_mem hc hclosing
    by_cases hopen : c = opening
    · rw [hopen, List.cons_append, breakFences_opening]
      cases hbody : fenceBody (x ++ [closing]) with
      | none => exact ⟨opening :: z, congrArg (opening :: ·) hz, hopen ▸ hcopy, rfl⟩
      | some found =>
        obtain ⟨body, rest⟩ := found
        refine ⟨opening :: zeroWidthSpace :: body, ?_, ?_, rfl⟩
        · rw [fenceBody_last hx hbody]
          rfl
        · refine List.not_mem_cons_of_ne_of_not_mem (by decide) ?_
          exact List.not_mem_cons_of_ne_of_not_mem (by decide) (closing_not_mem_fenceBody hbody)
    · rw [List.cons_append, breakFences_cons hopen, hz]
      exact ⟨c :: z, rfl, hcopy, rfl⟩

/-- A unit that is neither a space nor a slash stays behind the slash. -/
lemma afterSlash_append (hspace : isSpace c = false) (hc : c ≠ slash) (s later : Units) :
    afterSlash (s ++ c :: later) = afterSlash s ++ c :: later := by
  unfold afterSlash
  rw [dropWhile_append_stop hspace]
  cases s.dropWhile isSpace with
  | nil =>
    rw [List.nil_append, if_neg (by simpa using hc), if_neg (by simp)]
  | cons d rest =>
    rw [List.cons_append, List.head?_cons, List.head?_cons]
    split <;> rfl

/-- What a tag is read from stands in front of the next opening bracket. -/
lemma inside_append (s later later' : Units) :
    tagInside (s ++ opening :: later) = tagInside (s ++ opening :: later') ∧
      fenceInside (s ++ opening :: later) = fenceInside (s ++ opening :: later') ∧
      markedHead (afterSlash (s ++ opening :: later)) =
        markedHead (afterSlash (s ++ opening :: later')) := by
  have hspace : isSpace opening = false := by decide
  have hnames : ∀ token ∈ fenceNames, lower opening ∉ token := by decide
  refine ⟨?_, ?_, ?_⟩
  · unfold tagInside
    rw [afterSlash_append hspace (by decide), afterSlash_append hspace (by decide),
      dropWhile_append_stop hspace, dropWhile_append_stop hspace, dropFirst_append hnames,
      dropFirst_append hnames]
    cases dropFirst fenceNames ((afterSlash s).dropWhile isSpace) with
    | none => rfl
    | some found =>
      dsimp only [Option.map_some]
      cases found.2 <;> rfl
  · unfold fenceInside
    rw [optionalSlash_append (by decide), optionalSlash_append (by decide),
      dropWhile_append_stop hspace, dropWhile_append_stop hspace, dropFirst_append hnames,
      dropFirst_append hnames]
    cases dropFirst fenceNames ((optionalSlash s).2.dropWhile isSpace) with
    | none => rfl
    | some found =>
      dsimp only [Option.map_some]
      rw [dropWhile_append_stop hspace, dropWhile_append_stop hspace]
      cases found.2.dropWhile isSpace <;> rfl
  · unfold markedHead roleBody
    rw [afterSlash_append hspace (by decide), afterSlash_append hspace (by decide),
      closedToken_append inert_role_opening, closedToken_append inert_role_opening,
      List.takeWhile_append, List.takeWhile_append, List.takeWhile_cons_of_neg (by simp [hspace]),
      List.takeWhile_cons_of_neg (by simp [hspace]), Option.isSome_map, Option.isSome_map]

/-- The tags that are looked for and are broken keep what else is read between the brackets. -/
lemma breakFences_kept (hx : closing ∉ x) : ∃ z, breakFences (x ++ [closing]) = z ++ [closing] ∧
    closing ∉ z ∧ tagInside z = tagInside x ∧ fenceInside z = fenceInside x ∧
      markedHead (afterSlash z) = markedHead (afterSlash x) := by
  by_cases hopen : opening ∈ x
  · obtain ⟨front, behind, rfl, hfront⟩ := List.eq_append_cons_of_mem hopen
    have hbehind : closing ∉ opening :: behind := fun h => hx (List.mem_append_right _ h)
    obtain ⟨z, hz, hclosing, hhead⟩ := breakFences_inside hbehind
    obtain ⟨tail, rfl⟩ := List.head?_eq_some_iff.1 hhead
    refine ⟨front ++ opening :: tail, ?_, ?_, inside_append front tail behind⟩
    · rw [List.append_assoc, List.cons_append, breakFences_append, breakFences_plain hfront,
        ← List.cons_append, hz, List.append_assoc]
    · intro hmem
      rcases List.mem_append.1 hmem with hmem | hmem
      · exact hx (List.mem_append_left _ hmem)
      · exact hclosing hmem
  · refine ⟨x, breakFences_plain fun hmem => ?_, hx, rfl, rfl, rfl⟩
    rcases List.mem_append.1 hmem with hmem | hmem
    · exact hopen hmem
    · exact absurd (List.mem_singleton.1 hmem) (by decide)

/-- No name of a fence begins with the zero-width space. -/
lemma dropFirst_zeroWidthSpace (s : Units) : dropFirst fenceNames (zeroWidthSpace :: s) = none :=
  rfl

/-- What is between two brackets, and what it becomes. -/
lemma neutralize_inside (hx : closing ∉ x) : ∃ x', closing ∉ x' ∧ fenceInside x' = false ∧
    (tagInside x' = true ↔ Stray x) ∧ ∀ a later,
      neutralize (a ++ opening :: (x ++ closing :: later)) =
        neutralize a ++ opening :: (x' ++ closing :: defang (breakFences later)) := by
  obtain ⟨y, hy, hclosing, hfence, htag⟩ : ∃ y,
      breakFences (opening :: (x ++ [closing])) = opening :: (y ++ [closing]) ∧ closing ∉ y ∧
        fenceInside (defang y) = false ∧ (tagInside (defang y) = true ↔ Stray x) := by
    -- a tag in the text is broken by a space without width, anything else is kept
    cases hbody : fenceBody (x ++ [closing]) with
    | some found =>
      obtain ⟨body, rest⟩ := found
      have hspace : isSpace zeroWidthSpace = false := by decide
      refine ⟨zeroWidthSpace :: body, ?_, ?_, ?_, ?_⟩
      · rw [breakFences_opening, hbody, fenceBody_last hx hbody]
        rfl
      · exact List.not_mem_cons_of_ne_of_not_mem (by decide) (closing_not_mem_fenceBody hbody)
      · refine fenceInside_defang ?_
        unfold fenceInside optionalSlash
        rw [List.head?_cons, if_neg (by decide), List.dropWhile_cons_of_neg (by simp [hspace]),
          dropFirst_zeroWidthSpace]
      · refine iff_of_false ?_ fun hstray => ?_
        · rw [tagInside_defang]
          unfold tagInside afterSlash
          rw [List.dropWhile_cons_of_neg (by simp [hspace]), List.head?_cons, if_neg (by decide),
            List.dropWhile_cons_of_neg (by simp [hspace]), dropFirst_zeroWidthSpace]
          exact Bool.false_ne_true
        · rw [hstray.2.1] at hbody
          cases hbody
    | none =>
      obtain ⟨z, hz, hclosing, htag, hfence, hmarked⟩ := breakFences_kept hx
      refine ⟨z, ?_, hclosing, ?_, ?_⟩
      · rw [breakFences_opening, hbody, hz]
      · exact fenceInside_defang (hfence.trans ((fenceBody_eq_none hx []).1 hbody))
      · rw [tagInside_defang, htag, hmarked, Bool.and_eq_true, Bool.not_eq_true']
        unfold Stray
        rw [and_iff_right hbody]
  refine ⟨defang y, fun hmem => hclosing (defang_subset (by decide) hmem), hfence, htag, fun a later => ?_⟩
  have hbreak : breakFences (a ++ opening :: (x ++ closing :: later)) =
      breakFences a ++ opening :: (y ++ closing :: breakFences later) := by
    rw [breakFences_append, ← List.cons_append, breakFences_close, List.cons_append, hy,
      List.cons_append, List.append_assoc]
    rfl
  unfold neutralize
  rw [hbreak, defangRoles_append inert_role_opening, defang_append inert_role_closing]

/-- The text up to a closing bracket is neutralized on its own. -/
lemma neutralize_prefix {a : Units} (h : a ++ opening :: (x ++ [closing]) <+: s) (hx : closing ∉ x) :
    ∃ x', neutralize (a ++ opening :: (x ++ [closing])) = neutralize a ++ opening :: (x' ++ [closing]) ∧
      neutralize (a ++ opening :: (x ++ [closing])) <+: neutralize s ∧ closing ∉ x' ∧
        (tagInside x' = true ↔ Stray x) := by
  obtain ⟨later, rfl⟩ := h
  obtain ⟨x', hclosing, -, htag, hall⟩ := neutralize_inside hx
  have hfront : neutralize (a ++ opening :: (x ++ [closing])) =
      neutralize a ++ opening :: (x' ++ [closing]) := hall a []
  refine ⟨x', hfront, ⟨defang (breakFences later), ?_⟩, hclosing, htag⟩
  rw [hfront, List.append_assoc a, List.cons_append, List.append_assoc x, List.singleton_append, hall,
    List.append_assoc, List.cons_append, List.append_assoc, List.singleton_append]

/-- A bracket among pieces. -/
lemma bracketed_split {first a w : Units} {pieces : List Units} (hfirst : opening ∉ first)
    (hpieces : ∀ piece ∈ pieces, opening ∉ piece) (h : first ++ bracketed pieces = a ++ opening :: w) :
    ∃ before piece behind, pieces = before ++ piece :: behind ∧ a = first ++ bracketed before ∧
      w = piece ++ bracketed behind := by
  induction pieces generalizing first a with
  | nil =>
    refine absurd ?_ hfirst
    have hplain : first = a ++ opening :: w := (List.append_nil first).symm.trans h
    rw [hplain]
    exact List.mem_append_right _ (List.mem_cons_self ..)
  | cons piece pieces ih =>
    obtain ⟨hpiece, hpieces⟩ := List.forall_mem_cons.1 hpieces
    rw [bracketed_cons] at h
    -- the bracket opens the first piece, or lies in a later one
    rcases List.append_eq_append_iff.1 h with ⟨gap, rfl, hgap⟩ | ⟨gap, rfl, hgap⟩
    · cases gap with
      | nil =>
        obtain ⟨-, hw⟩ := List.cons_eq_cons.1 hgap
        exact ⟨[], piece, pieces, rfl, rfl, hw.symm⟩
      | cons c gap =>
        obtain ⟨rfl, hrest⟩ := List.cons_eq_cons.1 hgap
        obtain ⟨before, next, behind, rfl, rfl, hw⟩ := ih hpiece hpieces hrest
        exact ⟨piece :: before, next, behind, rfl, rfl, hw⟩
    · cases gap with
      | nil =>
        obtain ⟨-, hw⟩ := List.cons_eq_cons.1 hgap
        rw [List.append_nil]
        exact ⟨[], piece, pieces, rfl, (List.append_nil a).symm, hw⟩
      | cons c gap =>
        obtain ⟨rfl, -⟩ := List.cons_eq_cons.1 hgap
        exact absurd (List.mem_append_right _ (List.mem_cons_self ..)) hfirst

/-- Without a closing bracket there is no fence. -/
lemma fenceBody_none (h : closing ∉ s) : fenceBody s = none := by
  cases hbody : fenceBody s with
  | none => rfl
  | some found =>
    obtain ⟨body, rest⟩ := found
    exact absurd ((fenceBody_suffix hbody).subset (List.mem_cons_self ..)) h

/-- A piece without a closing bracket gets none. -/
lemma closing_not_mem_piece {piece : Units} (h : closing ∉ piece) :
    closing ∉ defang (breakPiece piece) := by
  unfold breakPiece
  rw [fenceBody_none h]
  exact fun hmem => h (defang_subset (by decide) hmem)

/-- A closing bracket among the changed pieces was there before. -/
lemma closing_mem_bracketed {pieces : List Units} {f : Units → Units}
    (hf : ∀ piece, closing ∉ piece → closing ∉ f piece) (h : closing ∈ bracketed (pieces.map f)) :
    closing ∈ bracketed pieces := by
  unfold bracketed at h ⊢
  obtain ⟨image, himage, hmem⟩ := List.mem_flatMap.1 h
  obtain ⟨piece, hpiece, rfl⟩ := List.mem_map.1 himage
  refine List.mem_flatMap.2 ⟨piece, hpiece, ?_⟩
  rcases List.mem_cons.1 hmem with heq | hmem
  · exact absurd heq (by decide)
  · exact List.mem_cons_of_mem _ (not_imp_not.1 (hf piece) hmem)

/-- The first of some elements. -/
lemma append_cons_inj {front front' behind behind' : Units} (hfront : c ∉ front) (hfront' : c ∉ front')
    (h : front ++ c :: behind = front' ++ c :: behind') : front = front' := by
  induction front generalizing front' with
  | nil =>
    cases front' with
    | nil => rfl
    | cons d front' =>
      obtain ⟨rfl, -⟩ := List.cons_eq_cons.1 h
      exact absurd (List.mem_cons_self ..) hfront'
  | cons d front ih =>
    cases front' with
    | nil =>
      obtain ⟨rfl, -⟩ := List.cons_eq_cons.1 h
      exact absurd (List.mem_cons_self ..) hfront
    | cons d' front' =>
      obtain ⟨rfl, hrest⟩ := List.cons_eq_cons.1 h
      rw [ih (fun hmem => hfront (List.mem_cons_of_mem _ hmem))
        (fun hmem => hfront' (List.mem_cons_of_mem _ hmem)) hrest]

/-- Brackets of the neutralized text come from brackets of the text. -/
lemma neutralize_source {text a' x' : Units}
    (h : a' ++ opening :: (x' ++ [closing]) <+: neutralize text) (hx' : closing ∉ x') :
    ∃ a x, a ++ opening :: (x ++ [closing]) <+: text ∧ closing ∉ x ∧
      neutralize (a ++ opening :: (x ++ [closing])) = a' ++ opening :: (x' ++ [closing]) ∧
        fenceInside x' = false ∧ (tagInside x' = true ↔ Stray x) := by
  obtain ⟨first, pieces, hsplit, htext⟩ := Lines.splitOn_flatMap opening text
  change text = first ++ bracketed pieces at htext
  have hplain : ∀ piece ∈ first :: pieces, opening ∉ piece := by
    rw [← hsplit]
    exact fun piece hpiece => Lines.newline_not_mem_splitOn hpiece
  obtain ⟨hfirst, hpieces⟩ := List.forall_mem_cons.1 hplain
  obtain ⟨later', hlater'⟩ := h
  rw [List.append_assoc, List.cons_append, List.append_assoc, List.singleton_append, htext,
    neutralize_pieces hfirst hpieces] at hlater'
  have hfirst' : opening ∉ defangRoles first :=
    fun hmem => hfirst (defangRoles_subset (by decide) hmem)
  have hpieces' : ∀ piece ∈ pieces.map fun piece => defang (breakPiece piece), opening ∉ piece := by
    intro piece hpiece
    obtain ⟨source, hsource, rfl⟩ := List.mem_map.1 hpiece
    exact fun hmem => breakPiece_plain (hpieces source hsource) (defang_subset (by decide) hmem)
  -- the bracket that is left opens one of the pieces of the text
  obtain ⟨before', piece', behind', hmap, ha', hrest⟩ := bracketed_split hfirst' hpieces' hlater'.symm
  obtain ⟨before, tail, rfl, hbefore, htail⟩ := List.map_eq_append_iff.1 hmap
  obtain ⟨piece, behind, rfl, hpiece, hbehind⟩ := List.map_eq_cons_iff.1 htail
  have hbefore_plain : ∀ piece ∈ before, opening ∉ piece :=
    fun piece hpiece => hpieces piece (List.mem_append_left _ hpiece)
  have ha : neutralize (first ++ bracketed before) = a' := by
    rw [neutralize_pieces hfirst hbefore_plain, hbefore, ha']
  have hclosing : closing ∈ piece ++ bracketed behind := by
    have hmem : closing ∈ piece' ++ bracketed behind' := by
      rw [← hrest]
      exact List.mem_append_right _ (List.mem_cons_self ..)
    rcases List.mem_append.1 hmem with hmem | hmem
    · rw [← hpiece] at hmem
      exact List.mem_append_left _ (not_imp_not.1 closing_not_mem_piece hmem)
    · rw [← hbehind] at hmem
      exact List.mem_append_right _ (closing_mem_bracketed (fun _ => closing_not_mem_piece) hmem)
  obtain ⟨x, later, hx, hnone⟩ := List.eq_append_cons_of_mem hclosing
  have htext' : text = first ++ bracketed before ++ opening :: (x ++ closing :: later) := by
    rw [htext, bracketed_append, bracketed_cons, hx, List.append_assoc]
  obtain ⟨y, hy, hfence, htag, hall⟩ := neutralize_inside hnone
  have hxy : y = x' := by
    have hwhole := hall (first ++ bracketed before) later
    rw [← htext', htext, neutralize_pieces hfirst hpieces, ← hlater', ha] at hwhole
    have hinside := List.append_cancel_left hwhole
    exact (append_cons_inj hx' hy (List.cons_eq_cons.1 hinside).2).symm
  refine ⟨first ++ bracketed before, x, ?_, hnone, ?_, hxy ▸ hfence, hxy ▸ htag⟩
  · refine ⟨later, ?_⟩
    rw [htext', List.append_assoc (first ++ _), List.cons_append, List.append_assoc x]
    rfl
  · rw [hall _ [], ha, hxy]
    rfl

end tags

end NexusClaw.PromptSanitizer
