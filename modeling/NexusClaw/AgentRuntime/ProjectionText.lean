import NexusClaw.AgentRuntime.RecordQueryProjection

/-!
# The text of a projection

The size of the text, the tags in it, and how it comes through the fence of the message.
-/

namespace NexusClaw.RecordQuery
open AuditChain (Units JsonValue NumberFormat Number unit units byteLength parse setProperty join joinRest
  lookup_eq_some byKey byKey_map byKey_eq_of_perm mem_byKey)
open MetadataRuntime (quote quoteUnits unsign unsign_arr unsign_obj distinct_unsign normal_unsign
  fromEntries fromEntries_perm)
open CompactText (stringify stringify_arr stringify_obj stringify_printable parse_stringify member
  Additive bracketedSize)
open AgentMarkdownPolicy (lineFeed)
open PromptSanitizer (wrapUntrustedContent sanitizeUntrustedText sanitize_no_delimiter delimiterSpoof
  fenceAt fenceAt_opening fenceAt_other fenceBody fenceBody_append fenceBody_close fenceBody_none
  inert_fence_quote opening closing doubleQuote breakFences breakFences_cons breakFences_opening defang
  defang_cons defangRoles_eq neutralize roleBody openingTag fencedBody truncationNote_plain)

/-! ## The size of the text -/

/-- The size of a record as it is written. -/
def recordSize (size : Units → Nat) (fmt : NumberFormat) (record : JsonRecord) : Nat :=
  bracketedSize (record.map fun f => size (quote f.1) + 1 + size (stringify fmt f.2))

/-- With `n` records shown, something is missing: a record, or a field of a record. -/
def truncatedAt (output : Option JsonValue) (n : Nat) : Bool :=
  decide (n < (recordsOf output).length) || (recordsOf output).any fun record => !allShown record

/-- The size of the text with `n` records, by what is in the output: the 69 characters around them, the
counts, the identifiers and the records. -/
def feedbackSize (size : Units → Nat) (fmt : NumberFormat) (output toolInput : Option JsonValue)
    (n : Nat) : Nat :=
  69 + size (stringify fmt (totalCount output)) +
    size (stringify fmt (.num (ofCount (recordsOf output).length))) +
    bracketedSize ((recordIds (recordsOf output)).map fun id => size (stringify fmt id)) +
    bracketedSize (((recordsOf output).take n).map fun record =>
      recordSize size fmt (projectRecord record (filterFieldNames toolInput))) +
    if truncatedAt output n then 4 else 5

/-- The most of the first ten records with which the text has at most 8 KiB; one is always shown. -/
def kept (fmt : NumberFormat) (output toolInput : Option JsonValue) : Nat :=
  Nat.findGreatest (fun n => n ≤ 1 ∨
      feedbackSize byteLength fmt output toolInput n ≤ maxSerializedBytes)
    (min maxProjectedRecords (recordsOf output).length)

section size
variable {fmt : NumberFormat} {output toolInput : Option JsonValue} {size : Units → Nat}

/-- The size of a record does not depend on the order of its fields. -/
lemma recordSize_perm {record record' : JsonRecord} (h : record.Perm record') :
    recordSize size fmt record = recordSize size fmt record' := by
  unfold recordSize bracketedSize
  rw [(h.map _).sum_eq, List.length_map, List.length_map, h.length_eq]

/-- The size of a feedback is the sum of the sizes of its parts. -/
lemma size_feedback (hsize : Additive size) (n : Nat) :
    size (stringify fmt (feedback output
        (((recordsOf output).take n).map fun record => projectRecord record (filterFieldNames toolInput))
        (truncatedAt output n))) = feedbackSize size fmt output toolInput n := by
  have hrecords : (((recordsOf output).take n).map fun record =>
      size (stringify fmt (.obj (fromEntries (projectRecord record (filterFieldNames toolInput)))))) =
      ((recordsOf output).take n).map fun record =>
        recordSize size fmt (projectRecord record (filterFieldNames toolInput)) :=
    List.map_congr_left fun record _ =>
      (hsize.size_obj fmt _).trans (recordSize_perm (fromEntries_perm _))
  have hflag : size (stringify fmt (.bool (truncatedAt output n))) =
      if truncatedAt output n then 4 else 5 := by
    rw [stringify]
    cases truncatedAt output n with
    | true => exact hsize.ascii (by decide)
    | false => exact hsize.ascii (by decide)
  have hkey (s : String) (hs : ∀ c ∈ quote (units s), c < 0x80) :
      size (quote (units s)) = (quote (units s)).length := hsize.ascii hs
  have hmembers (total count ids records flag : Nat) :
      bracketedSize [12 + 1 + total, 15 + 1 + count, 11 + 1 + ids, 9 + 1 + records, 11 + 1 + flag] =
        69 + total + count + ids + records + flag := by
    simp only [bracketedSize, List.sum_cons, List.sum_nil, List.length_cons, List.length_nil]
    omega
  rw [feedback, hsize.size_obj]
  simp only [List.map_cons, List.map_nil]
  rw [hsize.size_arr, hsize.size_arr, List.map_map, List.map_map, hflag, hkey "totalCount" (by decide),
    hkey "returnedCount" (by decide), hkey "recordIds" (by decide), hkey "records" (by decide),
    hkey "truncated" (by decide), feedbackSize, ← hrecords]
  exact hmembers _ _ _ _ _

end size

/-! ## Tags in the text -/

section tags
variable {s t : Units} {c : UInt16}

/-- A delimiter begins at the first unit or later. -/
lemma delimiterSpoof_cons (c : UInt16) (s : Units) :
    delimiterSpoof (c :: s) = ((fenceAt (c :: s)).isSome || delimiterSpoof s) := by
  unfold delimiterSpoof
  rw [List.tails_cons, List.any_cons]

/-- No tag begins in a text without an opening bracket. -/
lemma delimiterSpoof_plain (h : opening ∉ s) (t : Units) :
    delimiterSpoof (s ++ t) = delimiterSpoof t := by
  induction s with
  | nil => rfl
  | cons c s ih =>
    obtain ⟨hc, hs⟩ := not_or.1 (List.mem_cons.not.1 h)
    rw [List.cons_append, delimiterSpoof_cons, fenceAt_other (Ne.symm hc), ih hs]
    rfl

/-- A tag ends in front of a quotation mark. -/
lemma fenceAt_quoted (c : UInt16) (s t : Units) :
    (fenceAt (c :: (s ++ doubleQuote :: t))).isSome = (fenceAt (c :: s)).isSome := by
  by_cases hc : c = opening
  · rw [hc, fenceAt_opening, fenceAt_opening, Option.isSome_map, Option.isSome_map,
      fenceBody_append inert_fence_quote (by decide), Option.isSome_map]
  · rw [fenceAt_other hc, fenceAt_other hc]

/-- No delimiter reaches over a quote. -/
lemma delimiterSpoof_quoted (s t : Units) :
    delimiterSpoof (s ++ doubleQuote :: t) = (delimiterSpoof s || delimiterSpoof t) := by
  induction s with
  | nil => 
    rw [List.nil_append, delimiterSpoof_cons, fenceAt_other (by decide)]
    rfl
  | cons c s ih =>
    rw [List.cons_append, delimiterSpoof_cons, delimiterSpoof_cons, fenceAt_quoted, ih, Bool.or_assoc]

/-- The delimiters of a quoted text are those within the quotes. -/
lemma delimiterSpoof_quote (s t : Units) :
    delimiterSpoof (quote s ++ t) = (delimiterSpoof (quoteUnits s) || delimiterSpoof t) := by
  have hsplit : quote s ++ t = [doubleQuote] ++ (quoteUnits s ++ doubleQuote :: t) := by
    simp [quote, doubleQuote, unit]
  rw [hsplit, delimiterSpoof_plain (by decide), delimiterSpoof_quoted]

section parts
variable {α : Type} {xs : List α} {text : α → Units} {found : α → Bool}

/-- The delimiters of joined texts are those of the texts. -/
lemma delimiterSpoof_joinRest
    (h : ∀ x ∈ xs, ∀ t, delimiterSpoof (text x ++ t) = (found x || delimiterSpoof t)) (t : Units) :
    delimiterSpoof (joinRest (xs.map text) ++ t) = (xs.any found || delimiterSpoof t) := by
  induction xs with
  | nil => rfl
  | cons x xs ih =>
    obtain ⟨hx, hxs⟩ := List.forall_mem_cons.1 h
    rw [List.map_cons, joinRest, List.cons_append, delimiterSpoof_cons, fenceAt_other (by decide),
      List.append_assoc, hx, ih hxs, List.any_cons, Bool.or_assoc]
    rfl

/-- So are those of a block. -/
lemma delimiterSpoof_bracketed {o c : UInt16} (ho : o ≠ opening) (hc : c ≠ opening)
    (h : ∀ x ∈ xs, ∀ t, delimiterSpoof (text x ++ t) = (found x || delimiterSpoof t)) (t : Units) :
    delimiterSpoof (o :: (join (xs.map text) ++ [c]) ++ t) = (xs.any found || delimiterSpoof t) := by
  have hclose : delimiterSpoof (c :: t) = delimiterSpoof t := by
    rw [delimiterSpoof_cons, fenceAt_other hc]
    rfl
  rw [List.cons_append, delimiterSpoof_cons, fenceAt_other ho, List.append_assoc, List.singleton_append]
  cases xs with
  | nil => exact hclose
  | cons x xs =>
    obtain ⟨hx, hxs⟩ := List.forall_mem_cons.1 h
    rw [List.map_cons, join, List.append_assoc, hx, delimiterSpoof_joinRest hxs, hclose, List.any_cons,
      Bool.or_assoc]
    rfl

end parts

/-- A tag in the text of a value is one in a string or a key of it, as it is written. -/
lemma delimiterSpoof_stringify (fmt : NumberFormat) (v : JsonValue) (t : Units) :
    delimiterSpoof (stringify fmt v ++ t) =
      (v.strings.any (fun s => delimiterSpoof (quoteUnits s)) || delimiterSpoof t) := by
  -- induction on the value: a tag lies inside of a quoted string, or behind the value
  induction v generalizing t with
  | null =>
    rw [stringify]
    exact delimiterSpoof_plain (by decide) t
  | bool b =>
    rw [stringify]
    cases b with
    | true => exact delimiterSpoof_plain (by decide) t
    | false => exact delimiterSpoof_plain (by decide) t
  | num n =>
    rw [stringify]
    refine delimiterSpoof_plain (fun hmem => ?_) t
    unfold AuditChain.serializeNumber at hmem
    split_ifs at hmem with hzero
    · exact absurd hmem (by decide)
    · exact absurd (fmt.format_units n hzero _ hmem) (by decide)
  | str s =>
    rw [stringify, delimiterSpoof_quote, JsonValue.strings, List.any_cons, List.any_nil, Bool.or_false]
  | arr vs ih =>
    rw [stringify_arr, AuditChain.strings_arr, List.any_flatMap]
    exact delimiterSpoof_bracketed (by decide) (by decide) ih t
  | obj fields ih =>
    rw [stringify_obj, AuditChain.strings_obj, List.any_flatMap]
    refine delimiterSpoof_bracketed (by decide) (by decide) (fun f hf t => ?_) t
    rw [member, List.append_assoc, delimiterSpoof_quote, List.cons_append, delimiterSpoof_cons,
      fenceAt_other (by decide), ih f hf, List.any_cons, Bool.or_assoc]
    rfl

end tags

/-! ## The text in the message -/

section message
variable {s t w front behind : Units} {c : UInt16}

/-- What begins with a character that is not in the front stands behind it. -/
lemma infix_behind (hc : c ∉ front) (h : c :: w <:+: front ++ s) : c :: w <:+: s := by
  obtain ⟨before, after, heq⟩ := h
  rw [List.append_assoc] at heq
  rcases List.append_eq_append_iff.1 heq with ⟨middle, hfront, hs⟩ | ⟨middle, -, hs⟩
  · cases middle with
    | nil => exact ⟨[], after, hs⟩
    | cons d middle =>
      have hd : c = d := (List.cons.inj hs).1
      exact absurd (hfront ▸ List.mem_append_right _ (hd ▸ List.mem_cons_self)) hc
  · exact ⟨middle, after, by rw [hs, List.append_assoc]⟩

/-- What ends in a character that is not behind stands in front of it. -/
lemma infix_before (hc : c ∉ behind) (h : w ++ [c] <:+: s ++ behind) : w ++ [c] <:+: s := by
  rw [← List.reverse_infix] at h ⊢
  rw [List.reverse_append, List.reverse_append] at h
  rw [List.reverse_append]
  exact infix_behind (mt List.mem_reverse.1 hc) h

/-- A text without a delimiter is not broken. -/
lemma breakFences_untagged (h : delimiterSpoof s = false) : breakFences s = s := by
  induction s with
  | nil => rfl
  | cons c s ih =>
    rw [delimiterSpoof_cons, Bool.or_eq_false_iff] at h
    by_cases hc : c = opening
    · have hbody : fenceBody s = none := by
        have hat := Option.not_isSome_iff_eq_none.1 (Bool.eq_false_iff.1 h.1)
        rw [hc, fenceAt_opening, Option.map_eq_none_iff] at hat
        exact hat
      rw [hc, breakFences_opening, hbody, ih h.2]
    · rw [breakFences_cons hc, ih h.2]

/-- A text without a line feed is not defanged. -/
lemma defang_plain (h : lineFeed ∉ s) : defang s = s := by
  induction s with
  | nil => rfl
  | cons c s ih =>
    obtain ⟨hc, hs⟩ := not_or.1 (List.mem_cons.not.1 h)
    rw [defang_cons (Ne.symm hc), ih hs]

/-- A tag stays one in a longer text. -/
lemma delimiterSpoof_infix (h : s <:+: t) (hs : delimiterSpoof s = true) : delimiterSpoof t = true := by
  obtain ⟨front, behind, rfl⟩ := h
  obtain ⟨tag, hsuffix, hat⟩ := List.any_eq_true.1 hs
  obtain ⟨before, rfl⟩ := (List.mem_tails _ _).1 hsuffix
  refine List.any_eq_true.2 ⟨tag ++ behind, ?_, ?_⟩
  · rw [List.mem_tails]
    exact ⟨front ++ before, by simp⟩
  · cases tag with
    | nil => cases hat
    | cons c tag =>
      by_cases hc : c = opening
      · rw [hc, fenceAt_opening, Option.isSome_map] at hat
        have hclosing : closing ∈ tag :=
          not_imp_comm.1 fenceBody_none (Option.isSome_iff_ne_none.1 hat)
        obtain ⟨x, later, rfl, -⟩ := List.eq_append_cons_of_mem hclosing
        rw [fenceBody_close, Option.isSome_map] at hat
        rw [hc, List.cons_append, fenceAt_opening, Option.isSome_map, List.append_assoc, List.cons_append,
          fenceBody_close, Option.isSome_map]
        exact hat
      · rw [fenceAt_other hc] at hat
        cases hat

/-- The text of an object comes through the sanitizer uncut exactly when it is within the limit and has
no tag. -/
lemma sanitize_infix_iff (fmt : NumberFormat) (fields : List (Units × JsonValue)) :
    stringify fmt (.obj fields) <:+: sanitizeUntrustedText (stringify fmt (.obj fields)) 4000 ↔
      (stringify fmt (.obj fields)).length ≤ 4000 ∧
        delimiterSpoof (stringify fmt (.obj fields)) = false := by
  obtain ⟨w, htext⟩ : ∃ w, stringify fmt (.obj fields) = unit '\x7b' :: (w ++ [unit '\x7d']) :=
    ⟨_, stringify_obj fmt fields⟩
  have hprintable := stringify_printable fmt (.obj fields)
  generalize stringify fmt (.obj fields) = text at htext hprintable ⊢
  constructor
  · intro h
    refine ⟨?_, ?_⟩
    · unfold sanitizeUntrustedText at h
      dsimp only at h
      split at h
      · -- the note of the sanitizer has no brace, so the text stands in front of it
        have hnote := truncationNote_plain (c := unit '\x7d') (by decide) (by decide) (by decide)
          (by decide) ((neutralize text).length - 4000)
        have hends : text = (unit '\x7b' :: w) ++ [unit '\x7d'] := htext
        have hcut : text <:+: (neutralize text).take 4000 := by
          conv_lhs => rw [hends]
          apply infix_before hnote
          rw [← hends]
          exact h
        exact hcut.length_le.trans (List.length_take_le _ _)
      · rename_i hshort
        exact h.length_le.trans (Nat.le_of_not_lt hshort)
    · by_contra htag
      rw [Bool.not_eq_false] at htag
      have hspoof := delimiterSpoof_infix h htag
      rw [sanitize_no_delimiter] at hspoof
      cases hspoof
  · rintro ⟨hlength, htag⟩
    have hfeed : lineFeed ∉ text := fun hmem => absurd (hprintable _ hmem) (by decide)
    have hrole : roleBody text = none := by
      rw [htext]
      rfl
    have hneutral : neutralize text = text := by
      rw [neutralize, breakFences_untagged htag, defangRoles_eq, hrole]
      exact defang_plain hfeed
    have hsafe : sanitizeUntrustedText text 4000 = text := by
      unfold sanitizeUntrustedText
      rw [hneutral]
      exact if_neg (Nat.not_lt.2 hlength)
    rw [hsafe]

end message

end NexusClaw.RecordQuery
