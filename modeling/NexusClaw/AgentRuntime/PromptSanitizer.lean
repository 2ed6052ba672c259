import NexusClaw.Scan
import NexusClaw.Shared.AgentMarkdownPolicy

/-!
# Untrusted text in prompts

`prompt-sanitizer.ts`: untrusted text is put between the tags of a fence. The tags that the sanitizer
looks for are broken, and no line of its output begins with a role marker. A tag with attributes, or
with white space in front of its slash, is not looked for, and the label stands in the opening tag as
it is.
-/

namespace NexusClaw.PromptSanitizer
open AuditChain (Units unit units decimalUnits)
open Permission.DataScope (isSpace)
open AgentMarkdownPolicy (lower dropToken lineFeed)

/-! ## The patterns -/

def opening : UInt16 :=
  0x3c

def closing : UInt16 :=
  0x3e

def slash : UInt16 :=
  0x2f

def colon : UInt16 :=
  0x3a

def doubleQuote : UInt16 :=
  0x22

/-- U+200B, which is no white space to a pattern. -/
def zeroWidthSpace : UInt16 :=
  0x200b

/-- U+02D0, which looks like a colon. -/
def longMark : UInt16 :=
  0x2d0

/-- `untrusted_data|tool_result|system` -/
def fenceNames : List Units :=
  ["untrusted_data", "tool_result", "system"].map units

/-- `system|assistant` -/
def roles : List Units :=
  ["system", "assistant"].map units

/-- The first of some tokens at the head of a text, as it is written there, and what follows it. -/
def dropFirst (tokens : List Units) (s : Units) : Option (Units × Units) :=
  tokens.findSome? fun token => (dropToken token s).map fun rest => (s.take token.length, rest)

/-- `\s*(tokens)\s*` and a closing character: the token and what follows the character. -/
def closedToken (tokens : List Units) (close : UInt16) (s : Units) : Option (Units × Units) :=
  match dropFirst tokens (s.dropWhile isSpace) with
  | none => none
  | some (token, rest) =>
    match rest.dropWhile isSpace with
    | [] => none
    | c :: rest => if c = close then some (token, rest) else none

/-- `\/?` -/
def optionalSlash (s : Units) : Units × Units :=
  if s.head? = some slash then ([slash], s.tail) else ([], s)

/-- `(\/?)\s*(untrusted_data|tool_result|system)\s*>`: the groups, and what follows. -/
def fenceBody (s : Units) : Option (Units × Units) :=
  (closedToken fenceNames closing (optionalSlash s).2).map fun body =>
    ((optionalSlash s).1 ++ body.1, body.2)

/-- `\s*(system|assistant)\s*:` -/
def roleBody (s : Units) : Option (Units × Units) :=
  closedToken roles colon s

/-- `/<(\/?)\s*(untrusted_data|tool_result|system)\s*>/gi` and its replacement. -/
def fenceAt : Units → Option (Units × Nat)
  | [] => none
  | c :: s =>
    if c = opening then
      (fenceBody s).map fun body =>
        (opening :: zeroWidthSpace :: body.1 ++ [closing], s.length + 1 - body.2.length)
    else none

/-- `/\n\s*(system|assistant)\s*:/gi` and its replacement. -/
def roleAt : Units → Option (Units × Nat)
  | [] => none
  | c :: s =>
    if c = lineFeed then
      (roleBody s).map fun body => (lineFeed :: body.1 ++ [longMark], s.length + 1 - body.2.length)
    else none

def breakFences (text : Units) : Units :=
  Scan.replace fenceAt text

/-- `/(^|\n)\s*(system|assistant)\s*:/gi`: the first alternative can only match the whole text's
beginning, and does so wherever the second one would. -/
def defangRoles (text : Units) : Units :=
  match roleBody text with
  | some (role, rest) => role ++ longMark :: Scan.replace roleAt rest
  | none => Scan.replace roleAt text

/-! ## The sanitizer -/

def neutralize (text : Units) : Units :=
  defangRoles (breakFences text)

def truncationNote (n : Nat) : Units :=
  lineFeed :: units "[...truncated " ++ decimalUnits n ++ units " chars]"

def sanitizeUntrustedText (text : Units) (maxLength : Nat) : Units :=
  let out := neutralize text
  if out.length > maxLength then out.take maxLength ++ truncationNote (out.length - maxLength)
  else out

def openingTag (label : Units) : Units :=
  units "<untrusted_data source=\"" ++ label ++ units "\">"

def fencedBody (text : Units) : Units :=
  lineFeed :: sanitizeUntrustedText text 4000 ++ [lineFeed]

def wrapUntrustedContent (text label : Units) : Units :=
  openingTag label ++ fencedBody text ++ units "</untrusted_data>"

/-- The labels of the patterns. -/
inductive InjectionLabel where
  | ignorePreviousInstructions
  | ignorePreviousInstructionsZh
  | roleSpoofSystem
  | fakeToolResult
  | newInstructionsMarker
  | newInstructionsMarkerZh
  | exfiltratePrompt
  | unconditionalCompliance
  | toolCoercion
  | delimiterSpoof
deriving DecidableEq, Repr

def InjectionLabel.all : List InjectionLabel :=
  [.ignorePreviousInstructions, .ignorePreviousInstructionsZh, .roleSpoofSystem, .fakeToolResult,
    .newInstructionsMarker, .newInstructionsMarkerZh, .exfiltratePrompt, .unconditionalCompliance,
    .toolCoercion, .delimiterSpoof]

/-- `/(^|\n)\s*(system|assistant)\s*:/i.test(text)` -/
def roleSpoofSystem (text : Units) : Bool :=
  (roleBody text).isSome || text.tails.any fun t => (roleAt t).isSome

/-- `/<\/?\s*(untrusted_data|tool_result|system)\s*>/i.test(text)` -/
def delimiterSpoof (text : Units) : Bool :=
  text.tails.any fun t => (fenceAt t).isSome

/-- `detectInjectionPatterns`; the tests of the other patterns are parameters. -/
def detectInjectionPatterns (others : InjectionLabel → Units → Bool) (text : Units) :
    List InjectionLabel :=
  if text = [] then []
  else InjectionLabel.all.filter fun label =>
    match label with
    | .roleSpoofSystem => roleSpoofSystem text
    | .delimiterSpoof => delimiterSpoof text
    | label => others label text

/-! ## Tokens -/

section tokens
variable {token : Units} {tokens : List Units} {s rest name : Units} {c close : UInt16}

/-- A token that is dropped stood in front, in upper or lower case. -/
lemma dropToken_spec (h : dropToken token s = some rest) :
    s = s.take token.length ++ rest ∧ (s.take token.length).map lower = token := by
  induction token generalizing s with
  | nil =>
    cases h
    exact ⟨rfl, rfl⟩
  | cons t token ih =>
    cases s with
    | nil => cases h
    | cons d s =>
      rw [dropToken] at h
      split at h
      · rename_i hd
        obtain ⟨hsplit, hlower⟩ := ih h
        rw [List.length_cons, List.take_succ_cons, List.cons_append, ← hsplit, List.map_cons, hlower, hd]
        exact ⟨rfl, rfl⟩
      · cases h

/-- The first token that fits is dropped. -/
lemma dropFirst_cons (token : Units) (tokens : List Units) (s : Units) :
    dropFirst (token :: tokens) s =
      ((dropToken token s).map fun rest => (s.take token.length, rest)).or (dropFirst tokens s) := by
  unfold dropFirst
  rw [List.findSome?_cons]
  cases dropToken token s <;> rfl

/-- A token as it is written. -/
lemma dropFirst_spec (h : dropFirst tokens s = some (name, rest)) :
    s = name ++ rest ∧ name.map lower ∈ tokens := by
  induction tokens with
  | nil => cases h
  | cons token tokens ih =>
    rw [dropFirst_cons] at h
    cases htoken : dropToken token s with
    | none =>
      rw [htoken] at h
      exact ⟨(ih h).1, List.mem_cons_of_mem _ (ih h).2⟩
    | some rest' =>
      rw [htoken] at h
      cases h
      obtain ⟨hsplit, hlower⟩ := dropToken_spec htoken
      refine ⟨hsplit, ?_⟩
      rw [hlower]
      exact List.mem_cons_self ..

/-- A change of a text that tokens are found through: it keeps what is in front of what it changes. -/
lemma dropFirst_map {f : Units → Units} (htoken : ∀ token ∈ tokens, ∀ s,
      dropToken token (f s) = (dropToken token s).map f ∧
        ∀ rest, dropToken token s = some rest → (f s).take token.length = s.take token.length)
    (s : Units) :
    dropFirst tokens (f s) = (dropFirst tokens s).map fun found => (found.1, f found.2) := by
  induction tokens with
  | nil => rfl
  | cons token tokens ih =>
    obtain ⟨hfirst, htokens⟩ := List.forall_mem_cons.1 htoken
    obtain ⟨hdrop, htake⟩ := hfirst s
    rw [dropFirst_cons, dropFirst_cons, hdrop, ih htokens]
    cases hfound : dropToken token s with
    | none => rfl
    | some rest =>
      rw [Option.map_some, Option.map_some, htake rest hfound]
      rfl

/-- A unit that is in no token stops a token at the same place. -/
lemma dropToken_append (hc : lower c ∉ token) (s later : Units) :
    dropToken token (s ++ c :: later) = (dropToken token s).map (· ++ c :: later) := by
  induction token generalizing s with
  | nil => rfl
  | cons t token ih =>
    obtain ⟨ht, htoken⟩ := not_or.1 (List.mem_cons.not.1 hc)
    cases s with
    | nil =>
      have hnone : dropToken (t :: token) (c :: later) = none := by
        rw [dropToken, if_neg ht]
      exact hnone
    | cons d s =>
      rw [List.cons_append, dropToken, dropToken]
      split
      · exact ih htoken s
      · rfl

/-- The same for the first token that fits. -/
lemma dropFirst_append (hc : ∀ token ∈ tokens, lower c ∉ token) (s later : Units) :
    dropFirst tokens (s ++ c :: later) =
      (dropFirst tokens s).map fun found => (found.1, found.2 ++ c :: later) := by
  refine dropFirst_map (f := (· ++ c :: later)) (fun token htoken s => ⟨?_, fun rest hrest => ?_⟩) s
  · exact dropToken_append (hc token htoken) s later
  · have hlength := congrArg List.length (dropToken_spec hrest).2
    rw [List.length_map, List.length_take] at hlength
    exact List.take_append_of_le_length (by omega)

/-- White space ends in front of a unit that is none. -/
lemma dropWhile_append_stop (hc : isSpace c = false) (s later : Units) :
    (s ++ c :: later).dropWhile isSpace = s.dropWhile isSpace ++ c :: later := by
  rw [List.dropWhile_append]
  split
  · rename_i hnil
    rw [List.isEmpty_iff.1 hnil, List.dropWhile_cons_of_neg (by simp [hc]), List.nil_append]
  · rfl

/-- A character that stands in no match. -/
structure Inert (tokens : List Units) (close c : UInt16) : Prop where
  space : isSpace c = false
  token : ∀ token ∈ tokens, lower c ∉ token
  close : c ≠ close

/-- What is found in front of such a character is found whatever follows. -/
lemma closedToken_append (hc : Inert tokens close c) (s later : Units) :
    closedToken tokens close (s ++ c :: later) =
      (closedToken tokens close s).map fun found => (found.1, found.2 ++ c :: later) := by
  unfold closedToken
  rw [dropWhile_append_stop hc.space, dropFirst_append hc.token]
  cases dropFirst tokens (s.dropWhile isSpace) with
  | none => rfl
  | some found =>
    dsimp only [Option.map_some]
    rw [dropWhile_append_stop hc.space]
    cases found.2.dropWhile isSpace with
    | nil =>
      rw [List.nil_append]
      dsimp only
      rw [if_neg hc.close]
      rfl
    | cons d rest =>
      dsimp only [List.cons_append]
      split <;> rfl

/-- An opening bracket stands in no role. -/
lemma inert_role_opening : Inert roles colon opening :=
  ⟨by decide, by decide, by decide⟩

/-- A closing bracket stands in no role. -/
lemma inert_role_closing : Inert roles colon closing :=
  ⟨by decide, by decide, by decide⟩

/-- An opening bracket stands in no name of a fence. -/
lemma inert_fence_opening : Inert fenceNames closing opening :=
  ⟨by decide, by decide, by decide⟩

/-- A quote stands in no name of a fence. -/
lemma inert_fence_quote : Inert fenceNames closing doubleQuote :=
  ⟨by decide, by decide, by decide⟩

end tokens

end NexusClaw.PromptSanitizer
