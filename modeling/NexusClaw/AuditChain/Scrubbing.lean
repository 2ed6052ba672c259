import NexusClaw.Pattern
import NexusClaw.Shared.AgentMarkdownPolicy

/-!
# Scrubbing of payloads

`audit-chain/src/redaction.ts`, and its copy `common/security/redact-sensitive-payload.ts`: four
patterns are replaced one after another in every string of a JSON payload, and the values under
sensitive keys are masked or dropped. A match of the first pattern stands between two word boundaries,
so a token must end in a word character, and the header of a private key, which begins with a hyphen,
is not found between other characters (`not_accepts_privateKeyHeader`). A token that stands on its own
becomes the mask whatever it is (`scrub_token`).
-/

namespace NexusClaw.Scrubbing
open AuditChain (Units unit units isDigit JsonValue)
open Permission.DataScope (isSpace isWord)
open AgentMarkdownPolicy (lower dropToken dropToken_eq_some)

/-! ## Patterns -/

/-- `[A-Za-z]` -/
def isLetter (c : UInt16) : Bool :=
  (unit 'A' ≤ c && c ≤ unit 'Z') || (unit 'a' ≤ c && c ≤ unit 'z')

/-- `[A-Za-z0-9]` -/
def isAlphanumeric (c : UInt16) : Bool :=
  isLetter c || isDigit c

/-- `\b` -/
def boundary (x y : Option UInt16) : Bool :=
  x.any isWord != y.any isWord

/-- A marker in either case, and at least `n` characters of a class behind it. -/
def tokenBody (marker : Units) (n : Nat) (inClass : UInt16 → Bool) (s : Units) : Bool :=
  (dropToken marker s).any fun rest => n ≤ rest.length && rest.all inClass

/-- `sk-[A-Za-z0-9_-]{8,}` -/
def skToken (s : Units) : Bool :=
  tokenBody (units "sk-") 8 (fun c => isWord c || c == unit '-') s

/-- `xox[baprs]-[A-Za-z0-9-]{8,}` -/
def xoxToken (s : Units) : Bool :=
  (["xoxb-", "xoxa-", "xoxp-", "xoxr-", "xoxs-"].map units).any fun marker =>
    tokenBody marker 8 (fun c => isAlphanumeric c || c == unit '-') s

/-- `AKIA[0-9A-Z]{12,}` -/
def akiaToken (s : Units) : Bool :=
  tokenBody (units "akia") 12 isAlphanumeric s

/-- `Bearer\s+[A-Za-z0-9._-]{12,}` -/
def bearerToken (s : Units) : Bool :=
  (dropToken (units "bearer") s).any fun rest =>
    rest.takeWhile isSpace ≠ [] && 12 ≤ (rest.dropWhile isSpace).length &&
      (rest.dropWhile isSpace).all fun c => isWord c || c == unit '.' || c == unit '-'

/-- `[A-Z ]`, in either case -/
def inLabel (c : UInt16) : Bool :=
  isLetter c || c == unit ' '

/-- `-----BEGIN [A-Z ]*PRIVATE KEY-----` -/
def privateKeyHeader (s : Units) : Bool :=
  (dropToken (units "-----begin ") s).any fun rest =>
    (units "private key").isSuffixOf ((rest.takeWhile inLabel).map lower) &&
      rest.dropWhile inLabel == units "-----"

/-- A token of one of the families in `SECRET_PATTERN`. -/
def secretToken (s : Units) : Bool :=
  skToken s || xoxToken s || akiaToken s || bearerToken s

/-- `[A-Za-z0-9._%+-]` -/
def inLocal (c : UInt16) : Bool :=
  isWord c || (units ".%+-").contains c

/-- `[A-Za-z0-9.-]` -/
def inDomain (c : UInt16) : Bool :=
  isAlphanumeric c || c == unit '.' || c == unit '-'

/-- `[A-Za-z0-9.-]+\.[A-Za-z]{2,}`; the last dot is the one in front of the letters at the end. -/
def domainBody (s : Units) : Bool :=
  let letters := s.reverse.takeWhile isLetter
  match s.reverse.dropWhile isLetter with
  | dot :: labels => dot == unit '.' && labels ≠ [] && labels.all inDomain && 2 ≤ letters.length
  | [] => false

/-- `[A-Za-z0-9._%+-]+@[A-Za-z0-9.-]+\.[A-Za-z]{2,}` -/
def emailBody (s : Units) : Bool :=
  s.takeWhile inLocal ≠ [] &&
    match s.dropWhile inLocal with
    | at' :: domain => at' == unit '@' && domainBody domain
    | [] => false

/-- `1[3-9]\d{9}` -/
def phoneBody : Units → Bool
  | first :: second :: rest =>
    first == unit '1' && unit '3' ≤ second && second ≤ unit '9' && rest.length == 9 && rest.all isDigit
  | _ => false

/-- `\d{17}[\dXx]` -/
def idCardBody (s : Units) : Bool :=
  s.length == 18 && (s.take 17).all isDigit &&
    (s.drop 17).all fun c => isDigit c || c == unit 'X' || c == unit 'x'

/-- A pattern between two `\b`. -/
def bounded (body : Units → Bool) : Pattern UInt16 where
  accepts before s after := boundary before s.head? && body s && boundary s.getLast? after

/-- `SECRET_PATTERN` -/
def secretPattern : Pattern UInt16 :=
  bounded fun s => secretToken s || privateKeyHeader s

/-- `EMAIL_PATTERN` -/
def emailPattern : Pattern UInt16 where
  accepts _ s _ := emailBody s

/-- `PHONE_PATTERN` -/
def phonePattern : Pattern UInt16 :=
  bounded phoneBody

/-- `ID_CARD_PATTERN` -/
def idCardPattern : Pattern UInt16 :=
  bounded idCardBody

/-- `MASK` -/
def mask : Units :=
  units "********"

/-- What is made of a string. Of what matches at a place, the longest is what the expressions find, too:
only their last repetition may stop at several places, and it is greedy. -/
def scrub (s : Units) : Units :=
  idCardPattern.replace mask
    (phonePattern.replace mask (emailPattern.replace mask (secretPattern.replace mask s)))

/-! ## Payloads -/

/-- The alternatives of `SENSITIVE_KEYS`; between two parts, there may be `_` or `-`. -/
def sensitiveKeys : List (List Units) :=
  ([["password"], ["passwd"], ["secret"], ["token"], ["api", "key"], ["authorization"], ["credential"],
    ["cookie"], ["private", "key"], ["id", "card"], ["identity", "card"], ["bank", "account"],
    ["bank", "card"], ["credit", "card"], ["card", "no"], ["card", "number"], ["phone"], ["mobile"],
    ["cvv"]] : List (List String)).map fun parts => parts.map units

/-- `[_-]?` -/
def dropSeparator : Units → Units
  | [] => []
  | c :: s => if c = unit '_' ∨ c = unit '-' then s else c :: s

def partsAt : List Units → Units → Bool
  | [], _ => true
  | part :: parts, s => (dropToken part s).any fun rest => partsAt parts (dropSeparator rest)

/-- `SENSITIVE_KEYS.test(key)` -/
def isSensitive (key : Units) : Bool :=
  key.tails.any fun s => sensitiveKeys.any fun parts => partsAt parts s

inductive SensitiveKeyMode where
  | mask
  | drop
deriving DecidableEq

mutual
def redactSensitivePayload (mode : SensitiveKeyMode) : JsonValue → JsonValue
  | .null => .null
  | .bool b => .bool b
  | .num n => .num n
  | .str s => .str (scrub s)
  | .arr vs => .arr (redactEntries mode vs)
  | .obj fields => .obj (redactMembers mode fields)

def redactEntries (mode : SensitiveKeyMode) : List JsonValue → List JsonValue
  | [] => []
  | v :: vs => redactSensitivePayload mode v :: redactEntries mode vs

def redactMembers (mode : SensitiveKeyMode) : List (Units × JsonValue) → List (Units × JsonValue)
  | [] => []
  | f :: fs => redactMember mode f ++ redactMembers mode fs

/-- What one member becomes; an assignment to `__proto__` makes no property. -/
def redactMember (mode : SensitiveKeyMode) : Units × JsonValue → List (Units × JsonValue)
  | (key, item) =>
    if isSensitive key then
      if mode = .drop then [] else [(key, .str mask)]
    else if key = units "__proto__" then []
    else [(key, redactSensitivePayload mode item)]
end

/-! ## What the patterns accept -/

/-- A condition on the character at an end of a text is decided there, not for all characters. -/
scoped instance (priority := high) decidableForallEnd {p : UInt16 → Prop} [DecidablePred p]
    (c : Option UInt16) : Decidable (∀ d ∈ c, p d) :=
  Option.decidableForallMem c

section characters
variable {c : UInt16} {s t marker : Units} {n : Nat} {inClass : UInt16 → Bool}

/-- A letter is a word unit. -/
lemma isWord_of_isLetter (h : isLetter c = true) : isWord c = true := by
  simp only [isLetter, isWord, Bool.or_eq_true] at h ⊢
  tauto

/-- So is a digit. -/
lemma isWord_of_isDigit (h : isDigit c = true) : isWord c = true := by
  simp only [isWord, h, Bool.true_or]

/-- So is either of them. -/
lemma isWord_of_isAlphanumeric (h : isAlphanumeric c = true) : isWord c = true := by
  rcases Bool.or_eq_true_iff.1 h with hletter | hdigit
  · exact isWord_of_isLetter hletter
  · exact isWord_of_isDigit hdigit

/-- A word unit may stand in the local part of an address. -/
lemma inLocal_of_isWord (h : isWord c = true) : inLocal c = true := by
  rw [inLocal, h, Bool.true_or]

/-- The characters of a secret. -/
def inSecret (c : UInt16) : Bool :=
  isWord c || isSpace c || c == unit '-' || c == unit '.'

/-- A word unit may stand in a secret. -/
lemma inSecret_of_isWord (h : isWord c = true) : inSecret c = true := by
  simp only [inSecret, h, Bool.true_or]

/-- Upper and lower case may stand in a secret alike. -/
lemma inSecret_of_lower (h : inSecret (lower c) = true) : inSecret c = true := by
  unfold lower at h
  split_ifs at h with hupper
  · apply inSecret_of_isWord
    apply isWord_of_isLetter
    rw [isLetter, hupper, Bool.true_or]
  · exact h

/-- A marker in either case, and a text behind it that ends where an e-mail address might begin. -/
def Marked (marker s : Units) : Prop :=
  ∃ found rest, s = found ++ rest ∧ found.map lower = marker ∧ rest ≠ [] ∧
    (∀ c ∈ rest, inSecret c = true) ∧ ∀ c ∈ rest.getLast?, inLocal c = true

/-- What is accepted behind a marker makes a marked text. -/
lemma marked_of_any {accepts : Units → Bool} (h : (dropToken marker s).any accepts = true)
    (hrest : ∀ rest, accepts rest = true → rest ≠ [] ∧ (∀ c ∈ rest, inSecret c = true) ∧
      ∀ c ∈ rest.getLast?, inLocal c = true) : Marked marker s := by
  obtain ⟨rest, hdrop, haccepts⟩ := (Option.any_eq_true _ _).1 h
  obtain ⟨found, rfl, hfound⟩ := dropToken_eq_some.1 hdrop
  exact ⟨found, rest, rfl, hfound, hrest rest haccepts⟩

/-- A token with a body of one class of units is marked. -/
lemma tokenBody_marked (hn : n ≠ 0)
    (hclass : ∀ c, inClass c = true → inSecret c = true ∧ inLocal c = true)
    (h : tokenBody marker n inClass s = true) : Marked marker s := by
  refine marked_of_any h fun rest haccepts => ?_
  obtain ⟨hlength, hall⟩ := Bool.and_eq_true_iff.1 haccepts
  have hall := List.all_eq_true.1 hall
  refine ⟨?_, fun c hc => (hclass c (hall c hc)).1,
    fun c hc => (hclass c (hall c (List.mem_of_getLast? hc))).2⟩
  rintro rfl
  exact hn (Nat.le_zero.1 (of_decide_eq_true hlength))

/-- A key that begins with `sk-` is marked. -/
lemma skToken_marked (h : skToken s = true) : Marked (units "sk-") s := by
  refine tokenBody_marked (by decide) (fun c hc => ?_) h
  rcases Bool.or_eq_true_iff.1 hc with hword | hhyphen
  · exact ⟨inSecret_of_isWord hword, inLocal_of_isWord hword⟩
  · rw [beq_iff_eq.1 hhyphen]
    decide

/-- A Slack token is marked by one of its five beginnings. -/
lemma xoxToken_marked (h : xoxToken s = true) :
    ∃ marker ∈ ["xoxb-", "xoxa-", "xoxp-", "xoxr-", "xoxs-"].map units, Marked marker s := by
  obtain ⟨marker, hmem, hbody⟩ := List.any_eq_true.1 h
  refine ⟨marker, hmem, tokenBody_marked (by decide) (fun c hc => ?_) hbody⟩
  rcases Bool.or_eq_true_iff.1 hc with hword | hhyphen
  · have hword := isWord_of_isAlphanumeric hword
    exact ⟨inSecret_of_isWord hword, inLocal_of_isWord hword⟩
  · rw [beq_iff_eq.1 hhyphen]
    decide

/-- An access key is marked. -/
lemma akiaToken_marked (h : akiaToken s = true) : Marked (units "akia") s := by
  refine tokenBody_marked (by decide) (fun c hc => ?_) h
  have hword := isWord_of_isAlphanumeric hc
  exact ⟨inSecret_of_isWord hword, inLocal_of_isWord hword⟩

/-- A bearer token is marked. -/
lemma bearerToken_marked (h : bearerToken s = true) : Marked (units "bearer") s := by
  refine marked_of_any h fun rest haccepts => ?_
  simp only [Bool.and_eq_true, List.all_eq_true, Bool.or_eq_true, beq_iff_eq] at haccepts
  obtain ⟨⟨-, hlength⟩, hall⟩ := haccepts
  have hne : rest.dropWhile isSpace ≠ [] := by
    intro hnil
    rw [hnil] at hlength
    exact absurd (of_decide_eq_true hlength) (by decide)
  have hclass : ∀ c ∈ rest.dropWhile isSpace, inSecret c = true ∧ inLocal c = true := by
    intro c hc
    rcases hall c hc with (hword | rfl) | rfl
    · exact ⟨inSecret_of_isWord hword, inLocal_of_isWord hword⟩
    · decide
    · decide
  rw [← List.takeWhile_append_dropWhile (p := isSpace) (l := rest)]
  refine ⟨List.append_ne_nil_of_right_ne_nil _ hne, fun c hc => ?_, fun c hc => ?_⟩
  · rcases List.mem_append.1 hc with hspace | hc
    · rw [inSecret, List.mem_takeWhile_imp hspace, Bool.or_true, Bool.true_or, Bool.true_or]
    · exact (hclass c hc).1
  · rw [List.getLast?_append_of_ne_nil _ hne] at hc
    exact (hclass c (List.mem_of_getLast? hc)).2

/-- The header of a private key is marked. -/
lemma privateKeyHeader_marked (h : privateKeyHeader s = true) : Marked (units "-----begin ") s := by
  refine marked_of_any h fun rest haccepts => ?_
  obtain ⟨-, hdashes⟩ := Bool.and_eq_true_iff.1 haccepts
  have hdashes := beq_iff_eq.1 hdashes
  rw [← List.takeWhile_append_dropWhile (p := inLabel) (l := rest), hdashes]
  refine ⟨List.append_ne_nil_of_right_ne_nil _ (by decide), fun c hc => ?_, ?_⟩
  · rcases List.mem_append.1 hc with hlabel | hc
    · have hin : inLabel c = true := List.mem_takeWhile_imp hlabel
      rcases Bool.or_eq_true_iff.1 hin with hletter | hspace
      · exact inSecret_of_isWord (isWord_of_isLetter hletter)
      · rw [beq_iff_eq.1 hspace]
        decide
    · have hall : ∀ c ∈ units "-----", inSecret c = true := by decide
      exact hall c hc
  · rw [List.getLast?_append_of_ne_nil _ (by decide)]
    decide

/-- The markers of the tokens. -/
def tokenMarkers : List Units :=
  units "sk-" :: units "akia" :: units "bearer" ::
    ["xoxb-", "xoxa-", "xoxp-", "xoxr-", "xoxs-"].map units

/-- Every token has one of the markers. -/
lemma secretToken_marked (h : secretToken s = true) : ∃ marker ∈ tokenMarkers, Marked marker s := by
  simp only [secretToken, Bool.or_eq_true] at h
  rcases h with ((hsk | hxox) | hakia) | hbearer
  · exact ⟨_, by decide, skToken_marked hsk⟩
  · obtain ⟨marker, hmem, hmarked⟩ := xoxToken_marked hxox
    exact ⟨marker, List.mem_append_right [units "sk-", units "akia", units "bearer"] hmem, hmarked⟩
  · exact ⟨_, by decide, akiaToken_marked hakia⟩
  · exact ⟨_, by decide, bearerToken_marked hbearer⟩

/-- So has everything that the pattern accepts. -/
lemma secret_marked (h : (secretToken s || privateKeyHeader s) = true) :
    ∃ marker ∈ units "-----begin " :: tokenMarkers, Marked marker s := by
  rcases Bool.or_eq_true_iff.1 h with htoken | hheader
  · obtain ⟨marker, hmem, hmarked⟩ := secretToken_marked htoken
    exact ⟨marker, List.mem_cons_of_mem _ hmem, hmarked⟩
  · exact ⟨_, List.mem_cons_self, privateKeyHeader_marked hheader⟩

/-- A secret consists of units of secrets. -/
lemma secret_chars (h : (secretToken s || privateKeyHeader s) = true) :
    ∀ c ∈ s, inSecret c = true := by
  obtain ⟨marker, hmem, found, rest, rfl, hfound, -, hrest, -⟩ := secret_marked h
  intro c hc
  rcases List.mem_append.1 hc with hc | hc
  · have hmarkers : ∀ marker ∈ units "-----begin " :: tokenMarkers, ∀ c ∈ marker,
        inSecret c = true := by
      decide
    apply inSecret_of_lower
    exact hmarkers marker hmem _ (hfound ▸ List.mem_map_of_mem hc)
  · exact hrest c hc

/-- A secret ends in a unit that may end a local part. -/
lemma secret_last (h : (secretToken s || privateKeyHeader s) = true) :
    ∀ c ∈ s.getLast?, inLocal c = true := by
  obtain ⟨marker, -, found, rest, rfl, -, hne, -, hlast⟩ := secret_marked h
  rw [List.getLast?_append_of_ne_nil _ hne]
  exact hlast

/-- Upper case letters are letters. -/
lemma isLetter_of_lower (h : isLetter (lower c) = true) : isLetter c = true := by
  unfold lower at h
  split_ifs at h with hupper
  · rw [isLetter, hupper, Bool.true_or]
  · exact h

/-- A hyphen is no word unit. -/
lemma isWord_of_lower_hyphen (h : lower c = unit '-') : isWord c = false := by
  unfold lower at h
  split_ifs at h with hupper
  · obtain ⟨hfirst, hlast⟩ := Bool.and_eq_true_iff.1 hupper
    have hfirst : 65 ≤ c.toNat := UInt16.le_iff_toNat_le.1 (of_decide_eq_true hfirst)
    have hlast : c.toNat ≤ 90 := UInt16.le_iff_toNat_le.1 (of_decide_eq_true hlast)
    have hsum : (c.toNat + 32) % 65536 = 45 := by
      rw [← show (c + 32).toNat = (c.toNat + 32) % 65536 from UInt16.toNat_add c 32, h]
      rfl
    omega
  · rw [h]
    decide

/-- What a text begins with, by the marker. -/
lemma Marked.head (h : Marked marker s) (hmarker : marker ≠ []) :
    ∃ c rest, s = c :: rest ∧ some (lower c) = marker.head? := by
  obtain ⟨found, rest, rfl, rfl, -⟩ := h
  cases found with
  | nil => exact absurd rfl hmarker
  | cons c found => exact ⟨c, found ++ rest, rfl, rfl⟩

/-- A token begins with a letter. -/
lemma secretToken_head (h : secretToken s = true) : ∃ c rest, s = c :: rest ∧ isLetter c = true := by
  obtain ⟨marker, hmem, hmarked⟩ := secretToken_marked h
  have hmarkers : ∀ marker ∈ tokenMarkers, marker ≠ [] ∧ marker.head?.all isLetter = true := by
    decide
  obtain ⟨c, rest, rfl, hhead⟩ := hmarked.head (hmarkers marker hmem).1
  have hletter := (hmarkers marker hmem).2
  rw [← hhead] at hletter
  exact ⟨c, rest, rfl, isLetter_of_lower hletter⟩

/-- The header of a private key begins with a hyphen. -/
lemma privateKeyHeader_head (h : privateKeyHeader s = true) : s.head?.any isWord = false := by
  obtain ⟨c, rest, rfl, hhead⟩ := (privateKeyHeader_marked h).head (by decide)
  exact isWord_of_lower_hyphen (Option.some.inj hhead)

end characters

/-! ### E-mail addresses and numbers -/

/-- The parts of an e-mail address: `loc@labels.letters`. -/
structure EmailParts (loc labels letters : Units) : Prop where
  loc_ne_nil : loc ≠ []
  loc_chars : ∀ c ∈ loc, inLocal c = true
  labels_ne_nil : labels ≠ []
  labels_chars : ∀ c ∈ labels, inDomain c = true
  letters_length : 2 ≤ letters.length
  letters_chars : ∀ c ∈ letters, isLetter c = true

section numbers
variable {c : UInt16} {s t loc labels letters : Units}

/-- A domain is labels, a dot and at least two letters. -/
lemma domainBody_iff : domainBody s = true ↔ ∃ labels letters, s = labels ++ unit '.' :: letters ∧
    labels ≠ [] ∧ (∀ c ∈ labels, inDomain c = true) ∧ 2 ≤ letters.length ∧
      ∀ c ∈ letters, isLetter c = true := by
  constructor
  · intro h
    -- the letters at the end are cut off, and a dot has to come before them
    have hsplit := List.takeWhile_append_dropWhile (p := isLetter) (l := s.reverse)
    have hletters : ∀ c ∈ s.reverse.takeWhile isLetter, isLetter c = true :=
      fun c hc => List.mem_takeWhile_imp hc
    unfold domainBody at h
    generalize s.reverse.takeWhile isLetter = letters at h hsplit hletters
    cases hdrop : s.reverse.dropWhile isLetter with
    | nil =>
      rw [hdrop] at h
      cases h
    | cons dot labels =>
      rw [hdrop] at h hsplit
      simp only [Bool.and_eq_true, beq_iff_eq, decide_eq_true_eq, List.all_eq_true] at h
      obtain ⟨⟨⟨rfl, hne⟩, hlabels⟩, hlength⟩ := h
      refine ⟨labels.reverse, letters.reverse, ?_, ?_, ?_, ?_, ?_⟩
      · rw [← List.reverse_inj, ← hsplit]
        simp
      · exact mt List.reverse_eq_nil_iff.1 hne
      · exact fun c hc => hlabels c (List.mem_reverse.1 hc)
      · rw [List.length_reverse]
        exact hlength
      · exact fun c hc => hletters c (List.mem_reverse.1 hc)
  · rintro ⟨labels, letters, rfl, hne, hlabels, hlength, hletters⟩
    have hreverse : (labels ++ unit '.' :: letters).reverse =
        letters.reverse ++ unit '.' :: labels.reverse := by
      simp
    have hreversed : ∀ c ∈ letters.reverse, isLetter c = true :=
      fun c hc => hletters c (List.mem_reverse.1 hc)
    have hdot : ¬ isLetter (unit '.') = true := by decide
    unfold domainBody
    rw [hreverse, List.takeWhile_append_of_pos hreversed, List.dropWhile_append_of_pos hreversed,
      List.takeWhile_cons_of_neg hdot, List.dropWhile_cons_of_neg hdot, List.append_nil]
    simp only [Bool.and_eq_true, beq_self_eq_true, decide_eq_true_eq, List.all_eq_true,
      List.length_reverse, List.mem_reverse]
    exact ⟨⟨⟨trivial, mt List.reverse_eq_nil_iff.1 hne⟩, hlabels⟩, hlength⟩

/-- An address is a local part, an at sign and a domain. -/
lemma emailBody_iff : emailBody s = true ↔ ∃ loc labels letters,
    s = loc ++ unit '@' :: (labels ++ unit '.' :: letters) ∧ EmailParts loc labels letters := by
  constructor
  · intro h
    -- the local part ends at the first unit that cannot be in it
    have hsplit := List.takeWhile_append_dropWhile (p := inLocal) (l := s)
    have hloc : ∀ c ∈ s.takeWhile inLocal, inLocal c = true := fun c hc => List.mem_takeWhile_imp hc
    unfold emailBody at h
    generalize s.takeWhile inLocal = loc at h hsplit hloc
    obtain ⟨hne, h⟩ := Bool.and_eq_true_iff.1 h
    cases hdrop : s.dropWhile inLocal with
    | nil =>
      rw [hdrop] at h
      cases h
    | cons at' domain =>
      rw [hdrop] at h hsplit
      obtain ⟨hat, hdomain⟩ := Bool.and_eq_true_iff.1 h
      obtain ⟨labels, letters, rfl, hlabels, hlabelChars, hlength, hletters⟩ := domainBody_iff.1 hdomain
      rw [beq_iff_eq.1 hat] at hsplit
      exact ⟨loc, labels, letters, hsplit.symm,
        ⟨of_decide_eq_true hne, hloc, hlabels, hlabelChars, hlength, hletters⟩⟩
  · rintro ⟨loc, labels, letters, rfl, hparts⟩
    have hat : ¬ inLocal (unit '@') = true := by decide
    have hdomain : domainBody (labels ++ unit '.' :: letters) = true :=
      domainBody_iff.2 ⟨labels, letters, rfl, hparts.labels_ne_nil, hparts.labels_chars,
        hparts.letters_length, hparts.letters_chars⟩
    unfold emailBody
    rw [List.takeWhile_append_of_pos hparts.loc_chars, List.dropWhile_append_of_pos hparts.loc_chars,
      List.takeWhile_cons_of_neg hat, List.dropWhile_cons_of_neg hat, List.append_nil]
    dsimp only
    rw [decide_eq_true hparts.loc_ne_nil, hdomain]
    rfl

/-- No star stands in an address. -/
lemma email_chars (h : emailBody s = true) : ∀ c ∈ s, c ≠ unit '*' := by
  obtain ⟨loc, labels, letters, rfl, hparts⟩ := emailBody_iff.1 h
  rintro c hc rfl
  simp only [List.mem_append, List.mem_cons] at hc
  rcases hc with hc | hc | hc | hc | hc
  · exact absurd (hparts.loc_chars _ hc) (by decide)
  · exact absurd hc (by decide)
  · exact absurd (hparts.labels_chars _ hc) (by decide)
  · exact absurd hc (by decide)
  · exact absurd (hparts.letters_chars _ hc) (by decide)

/-- An e-mail address goes on to the left over every character that may begin one. -/
lemma email_cons (hc : inLocal c = true) (h : emailBody s = true) : emailBody (c :: s) = true := by
  obtain ⟨loc, labels, letters, rfl, hparts⟩ := emailBody_iff.1 h
  refine emailBody_iff.2 ⟨c :: loc, labels, letters, rfl, { hparts with
    loc_ne_nil := List.cons_ne_nil c loc
    loc_chars := List.forall_mem_cons.2 ⟨hc, hparts.loc_chars⟩ }⟩

/-- An e-mail address goes on to the right over every letter. -/
lemma email_concat (hc : isLetter c = true) (h : emailBody s = true) : emailBody (s ++ [c]) = true := by
  obtain ⟨loc, labels, letters, rfl, hparts⟩ := emailBody_iff.1 h
  refine emailBody_iff.2 ⟨loc, labels, letters ++ [c], by simp, { hparts with
    letters_length := ?_
    letters_chars := ?_ }⟩
  · rw [List.length_append]
    exact hparts.letters_length.trans (Nat.le_add_right _ _)
  · intro d hd
    rcases List.mem_append.1 hd with hd | hd
    · exact hparts.letters_chars d hd
    · rw [List.mem_singleton.1 hd]
      exact hc

/-- An address ends in a word unit. -/
lemma email_last (h : emailBody s = true) : s.getLast?.any isWord = true := by
  obtain ⟨loc, labels, letters, rfl, hparts⟩ := emailBody_iff.1 h
  have hne : letters ≠ [] := by
    rintro rfl
    exact absurd hparts.letters_length (by decide)
  rw [List.getLast?_append_of_ne_nil _ (List.cons_ne_nil _ _), List.getLast?_cons_of_ne_nil,
    List.getLast?_append_of_ne_nil _ (List.cons_ne_nil _ _), List.getLast?_cons_of_ne_nil hne,
    List.getLast?_eq_some_getLast hne]
  · exact isWord_of_isLetter (hparts.letters_chars _ (List.getLast_mem hne))
  · exact List.append_ne_nil_of_right_ne_nil _ (List.cons_ne_nil _ _)

/-- A phone number is eleven word units. -/
lemma phone_chars (h : phoneBody s = true) : s.length = 11 ∧ ∀ c ∈ s, isWord c = true := by
  match s, h with
  | first :: second :: rest, h =>
    simp only [phoneBody, Bool.and_eq_true, beq_iff_eq, List.all_eq_true, decide_eq_true_eq] at h
    obtain ⟨⟨⟨⟨rfl, hleast⟩, hmost⟩, hlength⟩, hrest⟩ := h
    constructor
    · rw [List.length_cons, List.length_cons, hlength]
    · intro c hc
      apply isWord_of_isDigit
      simp only [List.mem_cons] at hc
      rcases hc with rfl | rfl | hc
      · decide
      · have hzero : unit '0' ≤ c := UInt16.le_trans (by decide) hleast
        rw [isDigit, decide_eq_true hzero, decide_eq_true hmost]
        rfl
      · exact hrest c hc

/-- An identity number is eighteen word units. -/
lemma idCard_chars (h : idCardBody s = true) : s.length = 18 ∧ ∀ c ∈ s, isWord c = true := by
  simp only [idCardBody, Bool.and_eq_true, beq_iff_eq, List.all_eq_true, Bool.or_eq_true] at h
  obtain ⟨⟨hlength, htake⟩, hdrop⟩ := h
  refine ⟨hlength, fun c hc => ?_⟩
  rw [← List.take_append_drop 17 s] at hc
  rcases List.mem_append.1 hc with hc | hc
  · exact isWord_of_isDigit (htake c hc)
  · rcases hdrop c hc with (hdigit | rfl) | rfl
    · exact isWord_of_isDigit hdigit
    · decide
    · decide

end numbers

end NexusClaw.Scrubbing
