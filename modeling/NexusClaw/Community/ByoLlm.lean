import Mathlib
import NexusClaw.JsonText

/-!
# Failures of a BYO model

`community-byo-llm.adapter.ts`: one call of an OpenAI-compatible endpoint. Everything that can go
wrong in it, in `fetch`, in the decoding of the body or in the completion, ends in `sanitizeByoError`,
whose message is to name the HTTP status and the host only. `Silent` is the two-run statement for one
kind of failure.
-/

namespace NexusClaw.Community.Byo

/-! ## The endpoint -/

structure CommunityByoLlmConfig where
  baseUrl : String
  apiKey : String
  model : String
  providerKind : String := "openai_compatible"
deriving DecidableEq, Repr

/-- A thrown value; `status` is its numeric `status` property, if it has one, as it is printed. -/
inductive Thrown where
  | byo (message : String)
  | error (message : String) (status : Option String)
  | other (status : Option String)
deriving DecidableEq, Repr

structure FetchResponse where
  ok : Bool
  status : String
  json : Except Thrown Json

/-- A message of a request: a text, or parts of which the texts count. -/
inductive MessageContent where
  | text (content : String)
  | parts (parts : List (String × String))

structure ByoRequest where
  messages : List (String × MessageContent)
  temperature : Option Rat := none
  maxTokens : Option Rat := none
  jsonFormat : Bool := false

/-- The `RequestInit` of the call. -/
structure FetchInit where
  authorization : String
  body : Json

/-- What the adapter takes from the platform: `new URL(baseUrl).host`, and the numbers that
`JSON.parse` reads. -/
structure Platform where
  urlHost : String → Option String
  numbers : Json.NumberFormat

structure ByoProviderStamp where
  providerFamily : String := "ai"
  providerKind : String
  modelId : String
  modelTier : Nat := 1
  resolutionSource : String := "community_byo_env"

structure ByoResponse where
  content : String
  model : String
  inputTokens : Rat
  outputTokens : Rat
  finishReason : String
  aiProviderStamp : ByoProviderStamp

/-! ## Texts -/

/-- The white space and the line terminators of the language. -/
def isJsSpace (c : Char) : Bool :=
  [0x09, 0x0a, 0x0b, 0x0c, 0x0d, 0x20, 0xa0, 0x1680, 0x2028, 0x2029, 0x202f, 0x205f, 0x3000,
    0xfeff].contains c.toNat || (0x2000 ≤ c.toNat && c.toNat ≤ 0x200a)

/-- `text.trim()` -/
def trim (text : List Char) : List Char :=
  ((text.dropWhile isJsSpace).reverse.dropWhile isJsSpace).reverse

def fenceMark : List Char :=
  ['`', '`', '`']

/-- The text inside a markdown fence around the whole of `text`, if there is one. -/
def fenced (text : List Char) : Option (List Char) :=
  if fenceMark.isPrefixOf text ∧ fenceMark.isSuffixOf text ∧ 6 ≤ text.length then
    let inner := (text.drop 3).take (text.length - 6)
    some (if "json".toList.isPrefixOf inner then inner.drop 4 else inner)
  else none

/-- The text before `JSON.parse` in `stripFencesAndValidate`. -/
def stripFences (content : String) : List Char :=
  let text := trim content.toList
  ((fenced text).map trim).getD text

/-- `split(key).join('***')` on what is left after `skip` more characters of an occurrence. -/
def scrubFrom (key : List Char) : Nat → List Char → List Char
  | _, [] => []
  | skip + 1, _ :: rest => scrubFrom key skip rest
  | 0, c :: rest =>
    if key.isPrefixOf (c :: rest) then "***".toList ++ scrubFrom key (key.length - 1) rest
    else c :: scrubFrom key 0 rest

/-- `raw.split(apiKey).join('***')`; an empty key splits between all characters. -/
def scrub (apiKey raw : String) : String :=
  if apiKey = "" then String.ofList (List.intercalate "***".toList (raw.toList.map ([·])))
  else String.ofList (scrubFrom apiKey.toList 0 raw.toList)

/-! ## Errors -/

def hostOf (p : Platform) (baseUrl : String) : String :=
  (p.urlHost baseUrl).getD "invalid-host"

def Thrown.status : Thrown → Option String
  | .byo _ => none
  | .error _ status => status
  | .other status => status

/-- `raw` -/
def Thrown.raw : Thrown → String
  | .byo message => message
  | .error message _ => message
  | .other _ => "BYO model endpoint call failed"

/-- `sanitizeByoError`: the message of the error. -/
def sanitizeByoError (p : Platform) (error : Thrown) (config : CommunityByoLlmConfig) : String :=
  match error with
  | .byo message => message
  | error =>
    let host := hostOf p config.baseUrl
    match error.status with
    | some status => "BYO model endpoint responded with HTTP " ++ status ++ " (" ++ host ++ ")."
    | none =>
      "BYO model endpoint unreachable (" ++ host ++ "): " ++ scrub config.apiKey error.raw

/-! ## chat -/

def messageText : MessageContent → String
  | .text content => content
  | .parts parts => String.join ((parts.filter fun part => part.1 = "text").map Prod.snd)

/-- The body of the request. -/
def requestBody (config : CommunityByoLlmConfig) (request : ByoRequest) : Json :=
  .obj ([("model", .str config.model),
      ("messages", .arr (request.messages.map fun message =>
        .obj [("role", .str message.1), ("content", .str (messageText message.2))]))] ++
    (request.temperature.map fun t => ("temperature", Json.num t)).toList ++
    ((request.maxTokens.filter fun n => 0 < n).map fun n => ("max_tokens", Json.num n)).toList ++
    (if request.jsonFormat then [("response_format", .obj [("type", .str "json_object")])] else []))

/-- `value?.[0]` -/
def firstOf : Option Json → Option Json
  | some (.arr (v :: _)) => some v
  | some (.obj fields) => fields.lookup "0"
  | _ => none

/-- `value?.name` -/
def propertyOf (value : Option Json) (name : String) : Option Json :=
  value.bind fun v => v.get? name

def firstChoice (payload : Json) : Option Json :=
  firstOf (payload.get? "choices")

/-- The text of `new TypeError` when `payload` is `null`. -/
def nullPayloadText : String :=
  "Cannot read properties of null (reading 'choices')"

def emptyCompletionText (p : Platform) (config : CommunityByoLlmConfig) : String :=
  "BYO model returned an empty completion (" ++ hostOf p config.baseUrl ++ ")."

def invalidCompletionText : String :=
  "BYO model completion is not valid JSON for the \x7bthought, action\x7d contract (fail-closed)."

/-- The completion in a payload, when it is there and is not blank. -/
def completion (payload : Json) : Option String :=
  match propertyOf (propertyOf (firstChoice payload) "message") "content" with
  | some (.str content) => if trim content.toList = [] then none else some content
  | _ => none

/-- `stripFencesAndValidate` -/
def stripFencesAndValidate (p : Platform) (content : String) : Except Thrown String :=
  if (Json.parse p.numbers (stripFences content)).isSome then
    .ok (String.ofList (stripFences content))
  else .error (.byo invalidCompletionText)

/-- `text.length`: a character outside the basic plane has two code units. -/
def jsLength (text : String) : Nat :=
  (text.toList.map fun c => if c.toNat < 0x10000 then 1 else 2).sum

/-- A token count of the reply, or the estimate from a number of characters. -/
def tokensOr (reported : Option Json) (characters : Nat) : Rat :=
  match reported with
  | some (.num n) => if 0 ≤ n then n else max 1 ((characters + 3) / 4 : Nat)
  | _ => max 1 ((characters + 3) / 4 : Nat)

/-- What the adapter makes of the completion. -/
def answer (p : Platform) (config : CommunityByoLlmConfig) (request : ByoRequest) (payload : Json)
    (content : String) : Except Thrown ByoResponse := do
  let usage := Json.nullish (payload.get? "usage") .empty
  let text ← stripFencesAndValidate p content
  pure
    { content := text
      model := config.model
      inputTokens := tokensOr (usage.get? "prompt_tokens")
        (request.messages.map fun message => jsLength (messageText message.2)).sum
      outputTokens := tokensOr (usage.get? "completion_tokens") (jsLength content)
      finishReason := ((propertyOf (firstChoice payload) "finish_reason").bind Json.asString).getD
        "stop"
      aiProviderStamp := { providerKind := config.providerKind, modelId := config.model } }

def completed (p : Platform) (config : CommunityByoLlmConfig) (request : ByoRequest)
    (payload : Json) : Except Thrown ByoResponse :=
  match completion payload with
  | none => .error (.byo (emptyCompletionText p config))
  | some content => answer p config request payload content

/-- What `attempt` does with the body; `payload.choices` of `null` throws. -/
def afterBody (p : Platform) (config : CommunityByoLlmConfig) (request : ByoRequest) :
    Json → Except Thrown ByoResponse
  | .null => .error (.error nullPayloadText none)
  | payload => completed p config request payload

/-- The body of the `try` in `chat`. -/
def attempt (p : Platform) (config : CommunityByoLlmConfig) (request : ByoRequest)
    (fetchImpl : String → FetchInit → Except Thrown FetchResponse) : Except Thrown ByoResponse := do
  let response ← fetchImpl (config.baseUrl ++ "/chat/completions")
    { authorization := "Bearer " ++ config.apiKey, body := requestBody config request }
  if !response.ok then
    .error (.byo (sanitizeByoError p (.error "upstream-status" (some response.status)) config))
  else
    let payload ← response.json
    afterBody p config request payload

/-- A call: the configuration, the request and the endpoint. -/
structure ByoRun where
  config : CommunityByoLlmConfig
  request : ByoRequest
  fetchImpl : String → FetchInit → Except Thrown FetchResponse

/-- `chat`; an error is its message. -/
def chat (p : Platform) (run : ByoRun) : Except String ByoResponse :=
  match attempt p run.config run.request run.fetchImpl with
  | .error error => .error (sanitizeByoError p error run.config)
  | .ok response => .ok response

/-! ## Kinds of failure -/

/-- What is known of a thrown value: an error of the adapter, a value with a status, another error,
another value. -/
inductive Shape where
  | byo
  | status
  | error
  | other
deriving DecidableEq, Repr

def Thrown.shape : Thrown → Shape
  | .byo _ => .byo
  | .error _ (some _) => .status
  | .error _ none => .error
  | .other (some _) => .status
  | .other none => .other

/-- Where a call fails: `fetch` rejects, the status is no success, `json()` rejects, the body is
`null`, there is no completion, or the completion is no JSON. -/
inductive FailureKind where
  | fetch (shape : Shape)
  | http
  | body (shape : Shape)
  | nullPayload
  | emptyCompletion
  | invalidCompletion
deriving DecidableEq, Repr

/-- A failure, with the status that belongs to it. -/
structure Failure where
  kind : FailureKind
  status : Option String
deriving DecidableEq, Repr

def completionFailure (p : Platform) (payload : Json) : Option Failure :=
  match completion payload with
  | none => some ⟨.emptyCompletion, none⟩
  | some content =>
    if (Json.parse p.numbers (stripFences content)).isSome then none
    else some ⟨.invalidCompletion, none⟩

/-- The failure that a payload is. -/
def payloadFailure (p : Platform) : Json → Option Failure
  | .null => some ⟨.nullPayload, none⟩
  | payload => completionFailure p payload

/-- The failure of a call, if it fails. -/
def ByoRun.failure (p : Platform) (run : ByoRun) : Option Failure :=
  match run.fetchImpl (run.config.baseUrl ++ "/chat/completions")
      { authorization := "Bearer " ++ run.config.apiKey
        body := requestBody run.config run.request } with
  | .error error => some ⟨.fetch error.shape, error.status⟩
  | .ok response =>
    if !response.ok then some ⟨.http, some response.status⟩
    else
      match response.json with
      | .error error => some ⟨.body error.shape, error.status⟩
      | .ok payload => payloadFailure p payload

/-- The kinds whose message holds a text that is not the adapter's, or is scrubbed of the key. -/
def FailureKind.echoes : FailureKind → Bool
  | .fetch shape => shape ≠ .status
  | .http => false
  | .body shape => shape ≠ .status
  | .nullPayload => true
  | .emptyCompletion => false
  | .invalidCompletion => false

/-- Two runs that differ in nothing but the key, the rest of the URL and what the endpoint answers. -/
structure ByoRun.Like (p : Platform) (run run' : ByoRun) : Prop where
  host : hostOf p run.config.baseUrl = hostOf p run'.config.baseUrl
  model : run.config.model = run'.config.model
  provider : run.config.providerKind = run'.config.providerKind
  request : run.request = run'.request

/-- Two like runs that fail in one way with one status throw one message. -/
def Silent (p : Platform) (kind : FailureKind) : Prop :=
  ∀ run run' status, run.Like p run' → run.failure p = some ⟨kind, status⟩ →
    run'.failure p = some ⟨kind, status⟩ →
    ∀ message message', chat p run = .error message → chat p run' = .error message' →
      message = message'

/-- The message of a kind that does not echo. -/
def FailureKind.message (p : Platform) (config : CommunityByoLlmConfig) (kind : FailureKind)
    (status : Option String) : String :=
  match kind with
  | .emptyCompletion => emptyCompletionText p config
  | .invalidCompletion => invalidCompletionText
  | _ =>
    "BYO model endpoint responded with HTTP " ++ status.getD "" ++ " (" ++ hostOf p config.baseUrl ++
      ")."

/-- Two configurations of one host give the same message. -/
lemma message_of_host {p : Platform} {config config' : CommunityByoLlmConfig} (kind : FailureKind)
    (h : hostOf p config.baseUrl = hostOf p config'.baseUrl) (status : Option String) :
    kind.message p config status = kind.message p config' status := by
  unfold FailureKind.message emptyCompletionText
  rw [h]

section silent
variable {p : Platform} {run : ByoRun}

/-- A status is told without the key. -/
lemma sanitize_status {error : Thrown} (h : error.shape = .status) (config : CommunityByoLlmConfig) :
    sanitizeByoError p error config = "BYO model endpoint responded with HTTP " ++
      error.status.getD "" ++ " (" ++ hostOf p config.baseUrl ++ ")." := by
  cases error with
  | byo message => cases h
  | error message status =>
    cases status with
    | none => cases h
    | some status => rfl
  | other status =>
    cases status with
    | none => cases h
    | some status => rfl

/-- The message when `attempt` stops with an error of the adapter. -/
lemma chat_byo {message : String}
    (h : attempt p run.config run.request run.fetchImpl = .error (.byo message)) :
    chat p run = .error message := by
  simp only [chat, h, sanitizeByoError]

/-- An answer that is no JSON. -/
lemma answer_invalid {payload : Json} {content : String}
    (h : ¬ (Json.parse p.numbers (stripFences content)).isSome) (config : CommunityByoLlmConfig)
    (request : ByoRequest) :
    answer p config request payload content = .error (.byo invalidCompletionText) := by
  have hinvalid : stripFencesAndValidate p content = .error (.byo invalidCompletionText) := by
    rw [stripFencesAndValidate, if_neg h]
  simp only [answer, hinvalid]
  rfl

/-- A completion that fails. -/
lemma completed_failure {payload : Json} {failure : Failure}
    (h : completionFailure p payload = some failure) (config : CommunityByoLlmConfig)
    (request : ByoRequest) :
    completed p config request payload =
      .error (.byo (failure.kind.message p config failure.status)) := by
  unfold completionFailure at h
  unfold completed
  cases hcompletion : completion payload with
  | none =>
    rw [hcompletion] at h
    cases h
    rfl
  | some content =>
    simp only [hcompletion] at h
    by_cases hvalid : (Json.parse p.numbers (stripFences content)).isSome
    · rw [if_pos hvalid] at h
      cases h
    · rw [if_neg hvalid] at h
      cases h
      exact answer_invalid hvalid config request

/-- A payload that is not null. -/
lemma payloadFailure_of_ne (p : Platform) {payload : Json} (h : payload ≠ .null) :
    payloadFailure p payload = completionFailure p payload := by
  cases payload with
  | null => exact absurd rfl h
  | _ => rfl

/-- What follows such a payload. -/
lemma afterBody_of_ne (p : Platform) (config : CommunityByoLlmConfig) (request : ByoRequest)
    {payload : Json} (h : payload ≠ .null) :
    afterBody p config request payload = completed p config request payload := by
  cases payload with
  | null => exact absurd rfl h
  | _ => rfl

/-- What follows a payload that fails. -/
lemma afterBody_failure {payload : Json} {failure : Failure}
    (h : payloadFailure p payload = some failure) (hsilent : failure.kind.echoes = false)
    (config : CommunityByoLlmConfig) (request : ByoRequest) :
    afterBody p config request payload =
      .error (.byo (failure.kind.message p config failure.status)) := by
  by_cases hnull : payload = .null
  · subst hnull
    cases h
    cases hsilent
  · rw [payloadFailure_of_ne p hnull] at h
    rw [afterBody_of_ne p config request hnull]
    exact completed_failure h config request

/-- The message of a call that fails silently. -/
lemma chat_of_failure {failure : Failure} (h : run.failure p = some failure)
    (hsilent : failure.kind.echoes = false) :
    chat p run = .error (failure.kind.message p run.config failure.status) := by
  unfold ByoRun.failure at h
  -- a call fails in `fetch`, by its status, in the body, or in what the body says
  cases hfetch : run.fetchImpl (run.config.baseUrl ++ "/chat/completions")
      { authorization := "Bearer " ++ run.config.apiKey
        body := requestBody run.config run.request } with
  | error error =>
    rw [hfetch] at h
    cases h
    have hshape : error.shape = .status := by simpa [FailureKind.echoes] using hsilent
    have hattempt : attempt p run.config run.request run.fetchImpl = .error error := by
      simp only [attempt, hfetch]
      rfl
    simp only [chat, hattempt]
    exact congrArg Except.error (sanitize_status hshape run.config)
  | ok response =>
    have hattempt : attempt p run.config run.request run.fetchImpl =
        if !response.ok then
          .error (.byo (sanitizeByoError p (.error "upstream-status" (some response.status))
            run.config))
        else response.json.bind (afterBody p run.config run.request) := by
      simp only [attempt, hfetch]
      rfl
    rw [hfetch] at h
    cases hok : response.ok with
    | false =>
      simp only [hok, Bool.not_false, if_true] at h hattempt
      cases h
      exact chat_byo hattempt
    | true =>
      simp only [hok, Bool.not_true, Bool.false_eq_true, if_false] at h hattempt
      cases hjson : response.json with
      | error error =>
        rw [hjson] at h hattempt
        cases h
        have hshape : error.shape = .status := by simpa [FailureKind.echoes] using hsilent
        simp only [chat, hattempt, Except.bind]
        exact congrArg Except.error (sanitize_status hshape run.config)
      | ok payload =>
        rw [hjson] at h hattempt
        have hbody := afterBody_failure h hsilent run.config run.request
        exact chat_byo (hattempt.trans hbody)

end silent

/-! ## Which failures are silent -/

/-- A call under a key against an endpoint that answers `reply`. -/
def runOf (apiKey : String) (reply : Except Thrown FetchResponse) : ByoRun where
  config := { baseUrl := "https://llm.example/v1", apiKey := apiKey, model := "m" }
  request := { messages := [] }
  fetchImpl := fun _ _ => reply

/-- A successful status with a body that `json()` decodes to `body`. -/
def replyOf (body : Except Thrown Json) : Except Thrown FetchResponse :=
  .ok { ok := true, status := "200", json := body }

section echo
variable (p : Platform)

/-- Two runs that differ in the key. -/
lemma runOf_like (key key' : String) (reply reply' : Except Thrown FetchResponse) :
    (runOf key reply).Like p (runOf key' reply') :=
  ⟨rfl, rfl, rfl, rfl⟩

/-- Two replies that reach the catch-all with errors whose messages differ are no silent failure. -/
lemma not_silent_of_replies {kind : FailureKind} {k l : String}
    {r s : Except Thrown FetchResponse} {message message' : String}
    (hkind : (runOf k r).failure p = some ⟨kind, none⟩)
    (hkind' : (runOf l s).failure p = some ⟨kind, none⟩)
    (hchat : chat p (runOf k r) = .error message) (hchat' : chat p (runOf l s) = .error message') (hne : message ≠ message') :
    ¬ Silent p kind := by
  intro hsilent
  exact hne (hsilent _ _ none (runOf_like p k l r s) hkind hkind' _ _ hchat hchat')

/-- Two thrown values of one shape without a status, and keys under which their messages differ. -/
lemma thrown_differ (shape : Shape) (hshape : shape ≠ .status) :
    ∃ key key' error error', Thrown.shape error = shape ∧ Thrown.shape error' = shape ∧
      error.status = none ∧ error'.status = none ∧ ∀ reply reply',
        sanitizeByoError p error (runOf key reply).config ≠
          sanitizeByoError p error' (runOf key' reply').config := by
  cases shape with
  | byo =>
    refine ⟨"k", "k", .byo "a", .byo "b", rfl, rfl, rfl, rfl, ?_⟩
    intro _ _ h
    have hmessage : "a" = "b" := h
    exact absurd hmessage (by decide)
  | status => exact absurd rfl hshape
  | error =>
    refine ⟨"k", "k", .error "a" none, .error "b" none, rfl, rfl, rfl, rfl, ?_⟩
    intro _ _ h
    have hscrub : scrub "k" "a" = scrub "k" "b" := by
      simpa [sanitizeByoError, Thrown.status, Thrown.raw, runOf] using h
    exact absurd hscrub (by decide)
  | other =>
    -- the text of the adapter is scrubbed like any other
    refine ⟨"model", "k", .other none, .other none, rfl, rfl, rfl, rfl, ?_⟩
    intro _ _ h
    have hscrub : scrub "model" (Thrown.other none).raw = scrub "k" (Thrown.other none).raw := by
      simpa [sanitizeByoError, Thrown.status, runOf] using h
    exact absurd hscrub (by decide)

/-- A kind of failure that echoes is not silent. -/
lemma not_silent_of_echoes {kind : FailureKind} (hechoes : kind.echoes = true) :
    ¬ Silent p kind := by
  cases kind with
  | fetch shape =>
    obtain ⟨key, key', error, error', hshape, hshape', hstatus, hstatus', hne⟩ :=
      thrown_differ p shape (by simpa [FailureKind.echoes] using hechoes)
    refine not_silent_of_replies p (r := .error error) (s := .error error') ?_ ?_ rfl rfl (hne _ _)
    · rw [← hshape, ← hstatus]; rfl
    · rw [← hshape', ← hstatus']; rfl
  | body shape =>
    obtain ⟨key, key', error, error', hshape, hshape', hstatus, hstatus', hne⟩ :=
      thrown_differ p shape (by simpa [FailureKind.echoes] using hechoes)
    refine not_silent_of_replies p (r := replyOf (.error error)) (s := replyOf (.error error'))
      ?_ ?_ rfl rfl (hne _ _)
    · rw [← hshape, ← hstatus]; rfl
    · rw [← hshape', ← hstatus']; rfl
  | nullPayload =>
    refine not_silent_of_replies p (k := "null") (l := "k") (r := replyOf (.ok .null))
      (s := replyOf (.ok .null)) rfl rfl rfl rfl ?_
    intro h
    have hscrub : scrub "null" nullPayloadText = scrub "k" nullPayloadText := by
      simpa [sanitizeByoError, Thrown.status, Thrown.raw, runOf] using h
    exact absurd hscrub (by decide)
  | http | emptyCompletion | invalidCompletion => cases hechoes

end echo

/-- The failures whose message is settled by the kind, the status and the host: a status that is no
success, a thrown value with a status, and a completion that is missing or invalid. -/
theorem silent_iff (p : Platform) (kind : FailureKind) : Silent p kind ↔ kind.echoes = false := by
  constructor
  · intro hsilent
    cases hechoes : kind.echoes with
    | false => rfl
    | true => exact absurd hsilent (not_silent_of_echoes p hechoes)
  · intro hechoes run run' status hlike hfailure hfailure' message message' hchat hchat'
    have hmessage : message = kind.message p run.config status :=
      Except.error.inj (hchat.symm.trans (chat_of_failure hfailure hechoes))
    have hmessage' : message' = kind.message p run'.config status :=
      Except.error.inj (hchat'.symm.trans (chat_of_failure hfailure' hechoes))
    rw [hmessage, hmessage']
    exact message_of_host kind hlike.host status

/-! ## An endpoint with credentials in its URL -/

section silentNumbers
variable {n : Rat}

/-- A format without numbers has nothing to read back. -/
lemma unread (h : False) : (none : Option Rat) = some n := h.elim

/-- No text is written for no number. -/
lemma headless (h : False) :
    ∃ c cs, ([] : List Char) = c :: cs ∧ (c.isDigit = true ∨ c = '-') := h.elim

/-- It has no characters. -/
lemma charless (h : False) : ∀ c ∈ ([] : List Char), Json.isNumberChar c = true := h.elim

end silentNumbers

/-- A platform on which every URL is one of the host `llm.internal.example`. -/
def oneHost : Platform where
  urlHost := fun _ => some "llm.internal.example"
  numbers :=
    { finite := fun _ => False
      format := fun _ => []
      read := fun _ => none
      read_format := unread
      format_head := headless
      format_chars := charless }

/-- A call whose `baseUrl` has a user and a password: `fetch` rejects such a URL, and its error quotes
it. -/
def credentialsRun (password : String) : ByoRun where
  config :=
    { baseUrl := "https://ops:" ++ password ++ "@llm.internal.example/v1"
      apiKey := "sk-1"
      model := "m" }
  request := { messages := [("user", .text "hello")] }
  fetchImpl := fun url _ =>
    .error (.error ("Request cannot be constructed from a URL that includes credentials: " ++ url)
      none)

/-- A failed fetch echoes the credentials of the address. -/
theorem credentials_not_silent : ¬ Silent oneHost (.fetch .error) := by
  intro hsilent
  have hlike : (credentialsRun "hunter2").Like oneHost (credentialsRun "swordfish") :=
    ⟨rfl, rfl, rfl, rfl⟩
  have heq := hsilent _ _ none hlike rfl rfl _ _ rfl rfl
  exact absurd heq (by decide +kernel)

end NexusClaw.Community.Byo
