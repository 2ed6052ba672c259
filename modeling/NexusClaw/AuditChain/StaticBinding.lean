import NexusClaw.Concurrent.Latch
import NexusClaw.Governance.Store

/-!
# Static connector bindings

`bindStaticConnectorSnapshot` and `allocateSubcallOrdinal` of
`audit-chain/src/tool-call-lifecycle.service.ts`, with the other writers of a record: `transition`,
`markRunning`, `heartbeat` and `finalize`. Each awaited call of the repository is one statement.
`Platform` carries what the columns `uuid` and `bigint` make of a text, and `buildPreview`.
-/

namespace NexusClaw.AuditChain.StaticBinding
open Concurrent
open Governance (Id ToolCallStatus PermissionCheck GuardrailCheck JsOutput)

/-! ## Records -/

/-- The columns of `tool_call_records` that these calls read or write. -/
structure ToolCallRecord where
  id : Id
  workspaceId : Option Id
  agentExecutionId : Option Id
  toolName : String
  status : ToolCallStatus
  staticBindingRevisionId : Option String := none
  staticBindingChecksum : Option String := none
  staticBindingGeneration : Option String := none
  staticConnectorSubcallOrdinal : Option Int := none
  staticConnectorRequestDigest : Option String := none
  outputDigest : Option String := none
  output : Option Json := none
  permissionCheck : Option PermissionCheck := none
  permissionDetail : Option String := none
  guardrailCheck : Option GuardrailCheck := none
  durationMs : Int := 0
  errorCode : Option String := none
  lastHeartbeatAt : Option Nat := none
  leaseExpiresAt : Option Nat := none

/-- A patch without the columns of a binding or of a subcall; an absent property leaves its column as
it is. -/
structure ToolCallPatch where
  outputDigest : Option (Option String) := none
  output : Option (Option Json) := none
  permissionCheck : Option (Option PermissionCheck) := none
  permissionDetail : Option (Option String) := none
  guardrailCheck : Option (Option GuardrailCheck) := none
  durationMs : Option Int := none
  errorCode : Option (Option String) := none
  lastHeartbeatAt : Option (Option Nat) := none
  leaseExpiresAt : Option (Option Nat) := none

def ToolCallRecord.patch (row : ToolCallRecord) (status : ToolCallStatus) (p : ToolCallPatch) :
    ToolCallRecord :=
  { row with
    status
    outputDigest := p.outputDigest.getD row.outputDigest
    output := p.output.getD row.output
    permissionCheck := p.permissionCheck.getD row.permissionCheck
    permissionDetail := p.permissionDetail.getD row.permissionDetail
    guardrailCheck := p.guardrailCheck.getD row.guardrailCheck
    durationMs := p.durationMs.getD row.durationMs
    errorCode := p.errorCode.getD row.errorCode
    lastHeartbeatAt := p.lastHeartbeatAt.getD row.lastHeartbeatAt
    leaseExpiresAt := p.leaseExpiresAt.getD row.leaseExpiresAt }

inductive StaticToolCode where
  | slackMessageSend
  | teamsMessageSend
deriving DecidableEq, Repr

def StaticToolCode.text : StaticToolCode → String
  | .slackMessageSend => "slack.message.send"
  | .teamsMessageSend => "teams.message.send"

/-- `StaticConnectorBindingSnapshotV1` -/
structure StaticConnectorBindingSnapshot where
  workspaceId : Id
  toolCallId : Id
  agentExecutionId : Id
  staticToolCode : StaticToolCode
  revisionId : String
  checksum : String
  generation : String

structure Preview where
  digest : String
  value : Json

/-- `uuid` and `bigint` are the text that a column of the type gives back, or the error of the
statement. -/
structure Platform where
  uuid : String → Except String String
  bigint : String → Except String String
  buildPreview : Json → Except String Preview

/-! ## Statements -/

/-- The `where` of a read. -/
structure Where where
  id : Id
  tenant : Option (Id × Id) := none

def Where.holds (condition : Where) (row : ToolCallRecord) : Bool :=
  condition.tenant.all fun t => row.workspaceId = some t.1 && row.agentExecutionId = some t.2

inductive Stmt where
  | findOne (condition : Where)
  | bindSnapshot (input : StaticConnectorBindingSnapshot)
  | allocate (toolCallId : Id) (requestDigest : String)
  | update (id : Id) (expected : List ToolCallStatus) (status : ToolCallStatus)
      (patch : ToolCallPatch)
  | heartbeat (id : Id) (now : Nat)

abbrev Resp : Stmt → Type
  | .findOne _ => Option ToolCallRecord
  | .bindSnapshot _ => Except String Nat
  | .allocate _ _ => Nat
  | .update _ _ _ _ => Nat
  | .heartbeat _ _ => Nat

abbrev World : Type :=
  Table Id ToolCallRecord

/-- An update by key of the row that meets a condition, with the number of affected rows. -/
def updateWhere (w : World) (id : Id) (condition : ToolCallRecord → Bool)
    (f : ToolCallRecord → ToolCallRecord) : World × Nat :=
  match w id with
  | some row => if condition row then (w.put id (f row), 1) else (w, 0)
  | none => (w, 0)

def StaticConnectorBindingSnapshot.where (input : StaticConnectorBindingSnapshot) : Where where
  id := input.toolCallId
  tenant := some (input.workspaceId, input.agentExecutionId)

/-- The columns of a binding as the statement stores them. -/
def storeSnapshot (p : Platform) (input : StaticConnectorBindingSnapshot) :
    Except String (ToolCallRecord → ToolCallRecord) := do
  let revisionId ← p.uuid input.revisionId
  let generation ← p.bigint input.generation
  pure fun row =>
    { row with
      staticBindingRevisionId := some revisionId
      staticBindingChecksum := some input.checksum
      staticBindingGeneration := some generation }

def exec (p : Platform) : (s : Stmt) → World → World × Resp s
  | .findOne condition, w => (w, (w condition.id).filter condition.holds)
  | .bindSnapshot input, w =>
    match storeSnapshot p input with
    | .error e => (w, .error e)
    | .ok store =>
      let updated := updateWhere w input.toolCallId (fun row => input.where.holds row &&
        row.status = .started && row.staticBindingRevisionId.isNone) store
      (updated.1, .ok updated.2)
  | .allocate toolCallId requestDigest, w =>
    updateWhere w toolCallId
      (fun row => row.status = .running && row.staticConnectorSubcallOrdinal.isNone)
      fun row =>
        { row with
          staticConnectorSubcallOrdinal := some 1
          staticConnectorRequestDigest := some requestDigest }
  | .update id expected status patch, w =>
    updateWhere w id (fun row => expected.contains row.status) fun row => row.patch status patch
  | .heartbeat id now, w =>
    updateWhere w id (fun row => row.status = .running && row.leaseExpiresAt.any (now < ·))
      fun row => { row with lastHeartbeatAt := some now }

/-- A handler that awaits these statements. -/
abbrev Act (α : Type) : Type :=
  Prog Stmt Resp String α

def await (s : Stmt) : Act (Resp s) :=
  Prog.call s

/-! ## The calls -/

/-- `/^sha256:[0-9a-f]{64}$/` -/
def isDigest (text : String) : Bool :=
  "sha256:".toList.isPrefixOf text.toList && (text.toList.drop 7).length = 64 &&
    (text.toList.drop 7).all fun c => c.isDigit || ('a' ≤ c && c ≤ 'f')

/-- `/^[1-9][0-9]*$/` -/
def isGeneration (text : String) : Bool :=
  match text.toList with
  | c :: cs => '1' ≤ c && c ≤ '9' && cs.all Char.isDigit
  | [] => false

/-- A text that is there and not empty. -/
def truthy (text : Option String) : Bool :=
  text.any (· ≠ "")

/-- The comparison of `assertStaticBindingSnapshot`; `String(null)` is a text of its own. -/
def sameSnapshot (row : ToolCallRecord) (input : StaticConnectorBindingSnapshot) : Bool :=
  row.staticBindingRevisionId = some input.revisionId &&
    row.staticBindingChecksum = some input.checksum &&
    row.staticBindingGeneration.getD "null" = input.generation

def assertStaticBindingSnapshot (row : ToolCallRecord) (input : StaticConnectorBindingSnapshot) :
    Act ToolCallRecord :=
  if sameSnapshot row input then .ret row
  else .throw "STATIC_CONNECTOR_BINDING_SNAPSHOT_CONFLICT"

/-- The conditional update and the read after it. -/
def bindFirst (input : StaticConnectorBindingSnapshot) : Act ToolCallRecord := do
  match ← await (.bindSnapshot input) with
  | .error e => .throw e
  | .ok affected =>
    match ← await (.findOne input.where) with
    | none => .throw "STATIC_CONNECTOR_BINDING_SNAPSHOT_CONFLICT"
    | some persisted =>
      if affected = 0 ∧ truthy persisted.staticBindingRevisionId = false then
        .throw "STATIC_CONNECTOR_BINDING_SNAPSHOT_CONFLICT"
      else assertStaticBindingSnapshot persisted input

def bindStaticConnectorSnapshot (input : StaticConnectorBindingSnapshot) : Act ToolCallRecord :=
  if isDigest input.checksum && isGeneration input.generation then do
    match ← await (.findOne input.where) with
    | none => .throw "STATIC_CONNECTOR_TOOL_CALL_NOT_PREPARABLE"
    | some current =>
      if current.toolName ≠ input.staticToolCode.text ∨ current.status ≠ .started then
        .throw "STATIC_CONNECTOR_TOOL_CALL_NOT_PREPARABLE"
      else if truthy current.staticBindingRevisionId then assertStaticBindingSnapshot current input
      else bindFirst input
  else .throw "STATIC_CONNECTOR_BINDING_SNAPSHOT_INVALID"

/-- The record holds ordinal 1 for the digest. -/
def sameSubcall (row : ToolCallRecord) (requestDigest : String) : Bool :=
  row.staticConnectorSubcallOrdinal = some 1 &&
    row.staticConnectorRequestDigest = some requestDigest

def allocateSubcallOrdinal (toolCallId : Id) (kind requestDigest : String) : Act Nat :=
  if kind = "static_connector" ∧ isDigest requestDigest then do
    match ← await (.findOne { id := toolCallId }) with
    | none => .throw "STATIC_CONNECTOR_TOOL_CALL_NOT_RUNNING"
    | some current =>
      if current.status ≠ .running then .throw "STATIC_CONNECTOR_TOOL_CALL_NOT_RUNNING"
      else if current.staticConnectorSubcallOrdinal.isSome then
        if sameSubcall current requestDigest then .ret 1
        else .throw "STATIC_CONNECTOR_SUBCALL_CONFLICT"
      else do
        let _ ← await (.allocate toolCallId requestDigest)
        match ← await (.findOne { id := toolCallId }) with
        | none => .throw "STATIC_CONNECTOR_SUBCALL_CONFLICT"
        | some persisted =>
          if sameSubcall persisted requestDigest then .ret 1
          else .throw "STATIC_CONNECTOR_SUBCALL_CONFLICT"
  else .throw "STATIC_CONNECTOR_SUBCALL_INVALID"

def transition (id : Id) (expected : List ToolCallStatus) (status : ToolCallStatus)
    (patch : ToolCallPatch) : Act Unit := do
  let affected ← await (.update id expected status patch)
  if affected = 1 then .ret ()
  else .throw ("TOOL_CALL_STATE_CONFLICT:" ++ toString id ++ ":" ++ status.text)

/-- `now` is the time that `new Date()` reads. -/
def markRunning (id : Id) (timeoutMs : Int) (expected : List ToolCallStatus) (now : Nat) :
    Act Unit :=
  transition id expected .running
    { lastHeartbeatAt := some (some now)
      leaseExpiresAt := some (some (now + (max 1 timeoutMs).toNat))
      permissionCheck := some (some .passed)
      guardrailCheck := some (some .passed) }

def heartbeat (id : Id) (now : Nat) : Act Unit := do
  let affected ← await (.heartbeat id now)
  if affected = 1 then .ret () else .throw ("TOOL_CALL_HEARTBEAT_REJECTED:" ++ toString id)

structure ToolCallFinalizeInput where
  status : ToolCallStatus
  output : JsOutput
  permissionCheck : PermissionCheck
  permissionDetail : Option String
  guardrailCheck : GuardrailCheck
  durationMs : Int
  errorCode : Option String

def ToolCallFinalizeInput.patch (input : ToolCallFinalizeInput) (preview : Option Preview) :
    ToolCallPatch where
  outputDigest := some (preview.map (·.digest))
  output := some (preview.map (·.value))
  permissionCheck := some (some input.permissionCheck)
  permissionDetail := some input.permissionDetail
  guardrailCheck := some (some input.guardrailCheck)
  durationMs := some input.durationMs
  errorCode := some input.errorCode
  leaseExpiresAt := some none

def finalize (p : Platform) (id : Id) (input : ToolCallFinalizeInput) : Act Unit :=
  match input.output with
  | .notJson => .throw "TOOL_CALL_OUTPUT_NOT_JSON"
  | .undefined => transition id [.started, .running] input.status (input.patch none)
  | .json v =>
    match p.buildPreview v with
    | .error e => .throw e
    | .ok preview => transition id [.started, .running] input.status (input.patch (some preview))

/-- A call of the service. -/
inductive Request where
  | bindStaticConnectorSnapshot (input : StaticConnectorBindingSnapshot)
  | allocateSubcallOrdinal (toolCallId : Id) (kind requestDigest : String)
  | transition (id : Id) (expected : List ToolCallStatus) (status : ToolCallStatus)
      (patch : ToolCallPatch)
  | markRunning (id : Id) (timeoutMs : Int) (expected : List ToolCallStatus) (now : Nat)
  | heartbeat (id : Id) (now : Nat)
  | finalize (id : Id) (input : ToolCallFinalizeInput)

/-- What a call returns. -/
inductive Result where
  | record (row : ToolCallRecord)
  | ordinal (n : Nat)
  | done

def Request.handle (p : Platform) : Request → Act Result
  | .bindStaticConnectorSnapshot input => do
    .ret (.record (← StaticBinding.bindStaticConnectorSnapshot input))
  | .allocateSubcallOrdinal toolCallId kind requestDigest => do
    .ret (.ordinal (← StaticBinding.allocateSubcallOrdinal toolCallId kind requestDigest))
  | .transition id expected status patch => do
    StaticBinding.transition id expected status patch
    .ret .done
  | .markRunning id timeoutMs expected now => do
    StaticBinding.markRunning id timeoutMs expected now
    .ret .done
  | .heartbeat id now => do
    StaticBinding.heartbeat id now
    .ret .done
  | .finalize id input => do
    StaticBinding.finalize p id input
    .ret .done

/-! ## Columns that are written once -/

/-- The binding that a record holds. -/
def ToolCallRecord.snapshot (row : ToolCallRecord) :
    Option String × Option String × Option String :=
  (row.staticBindingRevisionId, row.staticBindingChecksum, row.staticBindingGeneration)

/-- The subcall that a record holds. -/
def ToolCallRecord.subcall (row : ToolCallRecord) : Option Int × Option String :=
  (row.staticConnectorSubcallOrdinal, row.staticConnectorRequestDigest)

def Unbound (snapshot : Option String × Option String × Option String) : Prop :=
  snapshot.1 = none

def Unallocated (subcall : Option Int × Option String) : Prop :=
  subcall.1 = none

/-- The binding that a call asks for. -/
def StaticConnectorBindingSnapshot.snapshot (input : StaticConnectorBindingSnapshot) :
    Option String × Option String × Option String :=
  (some input.revisionId, some input.checksum, some input.generation)

/-- An update under a condition that protects a column. -/
lemma updateWhere_latched {α : Type} {f : ToolCallRecord → α} {empty : α → Prop} {w : World} {id : Id}
    {condition : ToolCallRecord → Bool} {g : ToolCallRecord → ToolCallRecord}
    (h : ∀ row, condition row = true → Latch empty (f row) (f (g row))) :
    Latched f empty w (updateWhere w id condition g).1 := by
  unfold updateWhere
  cases hrow : w id with
  | none => exact Latched.refl w
  | some row =>
    dsimp only
    split_ifs with hcondition
    · exact Latched.put hrow (h row hcondition)
    · exact Latched.refl w

/-- No statement changes a binding that has a revision. -/
lemma exec_snapshot (p : Platform) (s : Stmt) (w : World) :
    Latched ToolCallRecord.snapshot Unbound w (exec p s w).1 := by
  -- only the statement that binds writes the revision, and only where there is none
  cases s with
  | findOne condition => exact Latched.refl w
  | bindSnapshot input =>
    cases hstore : storeSnapshot p input with
    | error e =>
      simp only [exec, hstore]
      exact Latched.refl w
    | ok store =>
      simp only [exec, hstore]
      apply updateWhere_latched
      intro row hrow
      simp only [Bool.and_eq_true, Option.isNone_iff_eq_none] at hrow
      refine .inr ⟨hrow.2, ?_⟩
      unfold storeSnapshot at hstore
      cases hrevision : p.uuid input.revisionId with
      | error e =>
        rw [hrevision] at hstore
        cases hstore
      | ok revisionId =>
        cases hgeneration : p.bigint input.generation with
        | error e =>
          rw [hrevision, hgeneration] at hstore
          cases hstore
        | ok generation =>
          rw [hrevision, hgeneration] at hstore
          cases hstore
          exact nofun
  | allocate toolCallId requestDigest =>
    apply updateWhere_latched
    exact fun _ _ => Latch.refl _
  | update id expected status patch =>
    apply updateWhere_latched
    exact fun _ _ => Latch.refl _
  | heartbeat id now =>
    apply updateWhere_latched
    exact fun _ _ => Latch.refl _

/-- No statement changes a subcall that has an ordinal. -/
lemma exec_subcall (p : Platform) (s : Stmt) (w : World) :
    Latched ToolCallRecord.subcall Unallocated w (exec p s w).1 := by
  -- only the statement that allocates writes the ordinal, and only where there is none
  cases s with
  | findOne condition => exact Latched.refl w
  | bindSnapshot input =>
    cases hstore : storeSnapshot p input with
    | error e =>
      simp only [exec, hstore]
      exact Latched.refl w
    | ok store =>
      simp only [exec, hstore]
      apply updateWhere_latched
      intro row _
      unfold storeSnapshot at hstore
      cases hrevision : p.uuid input.revisionId with
      | error e =>
        rw [hrevision] at hstore
        cases hstore
      | ok revisionId =>
        cases hgeneration : p.bigint input.generation with
        | error e =>
          rw [hrevision, hgeneration] at hstore
          cases hstore
        | ok generation =>
          rw [hrevision, hgeneration] at hstore
          cases hstore
          exact Latch.refl _
  | allocate toolCallId requestDigest =>
    apply updateWhere_latched
    intro row hrow
    simp only [Bool.and_eq_true, Option.isNone_iff_eq_none] at hrow
    exact .inr ⟨hrow.2, nofun⟩
  | update id expected status patch =>
    apply updateWhere_latched
    exact fun _ _ => Latch.refl _
  | heartbeat id now =>
    apply updateWhere_latched
    exact fun _ _ => Latch.refl _

/-! ## What a call has read -/

/-- A record that was read has latched since then. -/
def StillThere : Sigma Resp → World → Prop
  | ⟨.findOne condition, response⟩, w => ∀ row, response = some row →
      ∃ row', w condition.id = some row' ∧ Latch Unbound row.snapshot row'.snapshot ∧
        Latch Unallocated row.subcall row'.subcall
  | _, _ => True

/-- What was stored is there. -/
lemma stillThere_seen (p : Platform) (s : Stmt) (w : World) :
    StillThere ⟨s, (exec p s w).2⟩ (exec p s w).1 := by
  cases s with
  | findOne condition =>
    intro row hrow
    exact ⟨row, (Option.filter_eq_some_iff.1 hrow).1, Latch.refl _, Latch.refl _⟩
  | bindSnapshot input => trivial
  | allocate toolCallId requestDigest => trivial
  | update id expected status patch => trivial
  | heartbeat id now => trivial

/-- It stays there after any statement. -/
lemma stillThere_step (p : Platform) (o : Sigma Resp) (s : Stmt) (w : World) (h : StillThere o w) :
    StillThere o (exec p s w).1 := by
  obtain ⟨s', response⟩ := o
  cases s' with
  | findOne condition =>
    intro row hrow
    obtain ⟨row', hrow', hsnapshot, hsubcall⟩ := h row hrow
    obtain ⟨row'', hrow'', hsnapshot'⟩ := exec_snapshot p s w _ _ hrow'
    obtain ⟨row₂, hrow₂, hsubcall'⟩ := exec_subcall p s w _ _ hrow'
    rw [hrow''] at hrow₂
    cases hrow₂
    exact ⟨row'', hrow'', hsnapshot.trans hsnapshot', hsubcall.trans hsubcall'⟩
  | bindSnapshot input => trivial
  | allocate toolCallId requestDigest => trivial
  | update id expected status patch => trivial
  | heartbeat id now => trivial

/-- The same snapshot is the one that was stored. -/
lemma snapshot_of_same {row : ToolCallRecord} {input : StaticConnectorBindingSnapshot}
    (hgeneration : isGeneration input.generation = true) (h : sameSnapshot row input = true) :
    row.snapshot = input.snapshot := by
  simp only [sameSnapshot, Bool.and_eq_true, decide_eq_true_eq] at h
  obtain ⟨⟨hrevision, hchecksum⟩, hstored⟩ := h
  have hsome : row.staticBindingGeneration = some input.generation := by
    cases hrow : row.staticBindingGeneration with
    | none =>
      -- the text `null` is no generation
      rw [hrow, Option.getD_none] at hstored
      rw [← hstored] at hgeneration
      exact absurd hgeneration (by decide)
    | some generation =>
      rw [hrow, Option.getD_some] at hstored
      rw [hstored]
  rw [ToolCallRecord.snapshot, hrevision, hchecksum, hsome]
  rfl

/-- The call has read the record that it returns, with the binding it asks for. -/
def ReadBound (input : StaticConnectorBindingSnapshot) (h : History Stmt Resp)
    (row : ToolCallRecord) : Prop :=
  ⟨.findOne input.where, some row⟩ ∈ h ∧ row.snapshot = input.snapshot

/-- The call has read the record with its digest. -/
def ReadAllocated (toolCallId : Id) (requestDigest : String) (h : History Stmt Resp) (_ : Nat) :
    Prop :=
  ∃ row, ⟨.findOne { id := toolCallId }, some row⟩ ∈ h ∧
    row.subcall = (some 1, some requestDigest)

/-- A snapshot that is there is compared. -/
lemma along_assert {input : StaticConnectorBindingSnapshot} {h : History Stmt Resp}
    {row : ToolCallRecord} (hgeneration : isGeneration input.generation = true)
    (hread : ⟨.findOne input.where, some row⟩ ∈ h) :
    Along (fun _ _ => True) (ReadBound input) h (assertStaticBindingSnapshot row input) := by
  unfold assertStaticBindingSnapshot
  rw [along_ite]
  exact ⟨fun hsame => ⟨hread, snapshot_of_same hgeneration hsame⟩, fun _ => trivial⟩

/-- The first snapshot is bound. -/
lemma along_bindFirst {input : StaticConnectorBindingSnapshot} {h : History Stmt Resp}
    (hgeneration : isGeneration input.generation = true) :
    Along (fun _ _ => True) (ReadBound input) h (bindFirst input) := by
  refine Along.call trivial fun bound => ?_
  cases bound with
  | error e => trivial
  | ok affected =>
    refine Along.call trivial fun persisted => ?_
    cases persisted with
    | none => trivial
    | some persisted =>
      rw [along_ite]
      refine ⟨fun _ => trivial, fun _ => along_assert hgeneration ?_⟩
      exact List.mem_append_right _ (List.mem_singleton_self _)

/-- A snapshot is bound or compared. -/
lemma along_bind (input : StaticConnectorBindingSnapshot) :
    Along (fun _ _ => True) (ReadBound input) [] (bindStaticConnectorSnapshot input) := by
  unfold bindStaticConnectorSnapshot
  rw [along_ite]
  refine ⟨fun hvalid => ?_, fun _ => trivial⟩
  have hgeneration := (Bool.and_eq_true_iff.1 hvalid).2
  refine Along.call trivial fun current => ?_
  cases current with
  | none => trivial
  | some current =>
    rw [along_ite, along_ite]
    refine ⟨fun _ => trivial, fun _ => ⟨fun _ => ?_, fun _ => along_bindFirst hgeneration⟩⟩
    exact along_assert hgeneration (List.mem_singleton_self _)

/-- The same request is the one that was allocated. -/
lemma subcall_of_same {row : ToolCallRecord} {requestDigest : String}
    (h : sameSubcall row requestDigest = true) : row.subcall = (some 1, some requestDigest) := by
  simp only [sameSubcall, Bool.and_eq_true, decide_eq_true_eq] at h
  rw [ToolCallRecord.subcall, h.1, h.2]

/-- A place is allocated or found. -/
lemma along_allocate (toolCallId : Id) (kind requestDigest : String) :
    Along (fun _ _ => True) (ReadAllocated toolCallId requestDigest) []
      (allocateSubcallOrdinal toolCallId kind requestDigest) := by
  unfold allocateSubcallOrdinal
  rw [along_ite]
  refine ⟨fun _ => ?_, fun _ => trivial⟩
  refine Along.call trivial fun current => ?_
  cases current with
  | none => trivial
  | some current =>
    rw [along_ite, along_ite]
    refine ⟨fun _ => trivial, fun _ => ⟨fun _ => ?_, fun _ => ?_⟩⟩
    · rw [along_ite]
      refine ⟨fun hsame => ⟨current, ?_, subcall_of_same hsame⟩, fun _ => trivial⟩
      exact List.mem_singleton_self _
    · refine Along.call trivial fun affected => Along.call trivial fun persisted => ?_
      cases persisted with
      | none => trivial
      | some persisted =>
        rw [along_ite]
        refine ⟨fun hsame => ⟨persisted, ?_, subcall_of_same hsame⟩, fun _ => trivial⟩
        exact List.mem_append_right _ (List.mem_singleton_self _)

/-! ## Every interleaving -/

/-- The postcondition of a call over its history. -/
def Request.Returned : Request → History Stmt Resp → Result → Prop
  | .bindStaticConnectorSnapshot input, h, result =>
    ∃ row, result = .record row ∧ ReadBound input h row
  | .allocateSubcallOrdinal toolCallId _ requestDigest, h, result =>
    ∃ n, result = .ordinal n ∧ ReadAllocated toolCallId requestDigest h n
  | _, _, _ => True

/-- Every request returns what was stored. -/
lemma along_handle (p : Platform) (request : Request) :
    Along (fun _ _ => True) request.Returned [] (request.handle p) := by
  cases request with
  | bindStaticConnectorSnapshot input =>
    exact Along.bind (along_bind input) fun h row hread => ⟨row, rfl, hread⟩
  | allocateSubcallOrdinal toolCallId kind requestDigest =>
    exact Along.bind (along_allocate toolCallId kind requestDigest) fun h n hread => ⟨n, rfl, hread⟩
  | transition id expected status patch => exact along_true _ _
  | markRunning id timeoutMs expected now => exact along_true _ _
  | heartbeat id now => exact along_true _ _
  | finalize id input => exact along_true _ _

section play
variable {ι : Type} [DecidableEq ι]

/-- The calls after a schedule, from the records `w`. -/
def played (p : Platform) (w : World) (requests : ι → Request) (sched : List ι) :
    Pool Stmt Resp String Result World ι :=
  (Pool.start w fun i => (requests i).handle p).play (exec p) sched

/-- The records after a schedule. -/
def records (p : Platform) (w : World) (requests : ι → Request) (sched : List ι) : World :=
  (played p w requests sched).world

/-- What holds after the schedule `sched`, and from then on. -/
structure WrittenOnce (p : Platform) (w : World) (requests : ι → Request) (sched : List ι) :
    Prop where
  snapshot : ∀ id row, w id = some row → ∃ now, records p w requests sched id = some now ∧
    (now.snapshot ≠ row.snapshot → Unbound row.snapshot ∧ ¬ Unbound now.snapshot ∧
      ∀ later, ∃ last, records p w requests (sched ++ later) id = some last ∧
        last.snapshot = now.snapshot)
  subcall : ∀ id row, w id = some row → ∃ now, records p w requests sched id = some now ∧
    (now.subcall ≠ row.subcall → Unallocated row.subcall ∧ ¬ Unallocated now.subcall ∧
      ∀ later, ∃ last, records p w requests (sched ++ later) id = some last ∧
        last.subcall = now.subcall)
  bound : ∀ i input result, requests i = .bindStaticConnectorSnapshot input →
    (played p w requests sched).thread i = .ret result →
    ∃ row now, result = .record row ∧ row.snapshot = input.snapshot ∧
      records p w requests sched input.toolCallId = some now ∧ now.snapshot = input.snapshot
  allocated : ∀ i toolCallId kind requestDigest result,
    requests i = .allocateSubcallOrdinal toolCallId kind requestDigest →
    (played p w requests sched).thread i = .ret result →
    ∃ now, records p w requests sched toolCallId = some now ∧
      now.subcall = (some 1, some requestDigest)
  boundAgree : ∀ i j input input' result result',
    requests i = .bindStaticConnectorSnapshot input →
    requests j = .bindStaticConnectorSnapshot input' → input.toolCallId = input'.toolCallId →
    (played p w requests sched).thread i = .ret result →
    (played p w requests sched).thread j = .ret result' → input.snapshot = input'.snapshot
  allocatedAgree : ∀ i j toolCallId kind kind' requestDigest requestDigest' result result',
    requests i = .allocateSubcallOrdinal toolCallId kind requestDigest →
    requests j = .allocateSubcallOrdinal toolCallId kind' requestDigest' →
    (played p w requests sched).thread i = .ret result →
    (played p w requests sched).thread j = .ret result' → requestDigest = requestDigest'

variable {p : Platform} {w : World} {requests : ι → Request} {sched : List ι}

/-- What is latched stays so in every run. -/
lemma play_latched {α : Type} {f : ToolCallRecord → α} {empty : α → Prop}
    (h : ∀ s w, Latched f empty w (exec p s w).1) (sched later : List ι) :
    Latched f empty (records p w requests sched) (records p w requests (sched ++ later)) := by
  have hplay : played p w requests (sched ++ later) =
      (played p w requests sched).play (exec p) later := Pool.play_append ..
  unfold records
  rw [hplay]
  refine Pool.play_invariant (exec p)
    (I := fun c => Latched f empty (played p w requests sched).world c.world) ?_ (Latched.refl _) later
  intro c j hc
  cases hj : c.thread j with
  | ret a => rw [Pool.advance_ret hj]; exact hc
  | throw e => rw [Pool.advance_throw hj]; exact hc
  | stmt s k =>
    rw [Pool.advance_stmt hj]
    exact hc.trans (h s c.world)

/-- A column that latches changes at most once in a run. -/
lemma play_once {α : Type} {f : ToolCallRecord → α} {empty : α → Prop}
    (h : ∀ s w, Latched f empty w (exec p s w).1) (sched : List ι) (id : Id) (row : ToolCallRecord)
    (hrow : w id = some row) :
    ∃ now, records p w requests sched id = some now ∧
      (f now ≠ f row → empty (f row) ∧ ¬ empty (f now) ∧
        ∀ later, ∃ last, records p w requests (sched ++ later) id = some last ∧ f last = f now) := by
  obtain ⟨now, hnow, hlatch⟩ := play_latched h [] sched id row hrow
  refine ⟨now, hnow, fun hne => ?_⟩
  obtain ⟨hempty, hfull⟩ := hlatch.resolve_left hne
  exact ⟨hempty, hfull, fun later => (play_latched h sched later).kept hnow hfull⟩

/-- What a request returned was stored. -/
lemma returned {i : ι} {result : Result}
    (h : (played p w requests sched).thread i = .ret result) :
    (requests i).Returned ((played p w requests sched).seen i) result := by
  have halong : Along _ (requests i).Returned ((played p w requests sched).seen i)
      ((played p w requests sched).thread i) :=
    Along.play (fun i => along_handle p (requests i)) sched i
  rw [h] at halong
  exact halong

/-- A binding that was read is still the one of the record. -/
lemma read_bound {i : ι} {input : StaticConnectorBindingSnapshot} {row : ToolCallRecord}
    (h : ReadBound input ((played p w requests sched).seen i) row) :
    ∃ now, records p w requests sched input.toolCallId = some now ∧
      now.snapshot = input.snapshot := by
  obtain ⟨hmem, hsnapshot⟩ := h
  have hthere := Pool.observed_play (stillThere_seen p) (stillThere_step p) w
    (fun i => (requests i).handle p) sched i _ hmem
  obtain ⟨now, hnow, hlatch, -⟩ := hthere row rfl
  refine ⟨now, hnow, ?_⟩
  rw [hlatch.kept (by rw [hsnapshot]; exact nofun), hsnapshot]

/-- What was allocated is there. -/
lemma read_allocated {i : ι} {toolCallId : Id} {requestDigest : String} {n : Nat}
    (h : ReadAllocated toolCallId requestDigest ((played p w requests sched).seen i) n) :
    ∃ now, records p w requests sched toolCallId = some now ∧
      now.subcall = (some 1, some requestDigest) := by
  obtain ⟨row, hmem, hsubcall⟩ := h
  have hthere := Pool.observed_play (stillThere_seen p) (stillThere_step p) w
    (fun i => (requests i).handle p) sched i _ hmem
  obtain ⟨now, hnow, -, hlatch⟩ := hthere row rfl
  refine ⟨now, hnow, ?_⟩
  rw [hlatch.kept (by rw [hsubcall]; exact nofun), hsubcall]

/-- Whatever the calls and their order, a binding and a subcall are written at most once, and a call
that returns has found its own. -/
theorem static_binding_written_once (p : Platform) (w : World) (requests : ι → Request)
    (sched : List ι) : WrittenOnce p w requests sched := by
  have hbound (i : ι) (input : StaticConnectorBindingSnapshot) (result : Result)
      (hi : requests i = .bindStaticConnectorSnapshot input)
      (hresult : (played p w requests sched).thread i = .ret result) :
      ∃ row now, result = .record row ∧ row.snapshot = input.snapshot ∧
        records p w requests sched input.toolCallId = some now ∧
          now.snapshot = input.snapshot := by
    have hreturned := returned hresult
    rw [hi] at hreturned
    obtain ⟨row, hrow, hread⟩ := hreturned
    obtain ⟨now, hnow, hsnapshot⟩ := read_bound hread
    exact ⟨row, now, hrow, hread.2, hnow, hsnapshot⟩
  have hallocated (i : ι) (toolCallId : Id) (kind requestDigest : String) (result : Result)
      (hi : requests i = .allocateSubcallOrdinal toolCallId kind requestDigest)
      (hresult : (played p w requests sched).thread i = .ret result) :
      ∃ now, records p w requests sched toolCallId = some now ∧
        now.subcall = (some 1, some requestDigest) := by
    have hreturned := returned hresult
    rw [hi] at hreturned
    obtain ⟨n, -, hread⟩ := hreturned
    exact read_allocated hread
  refine ⟨play_once (exec_snapshot p) sched, play_once (exec_subcall p) sched, hbound, hallocated,
    ?_, ?_⟩
  · intro i j input input' result result' hi hj hid hresult hresult'
    obtain ⟨-, now, -, -, hnow, hsnapshot⟩ := hbound i input result hi hresult
    obtain ⟨-, now', -, -, hnow', hsnapshot'⟩ := hbound j input' result' hj hresult'
    rw [hid, hnow'] at hnow
    cases hnow
    rw [← hsnapshot, hsnapshot']
  · intro i j toolCallId kind kind' requestDigest requestDigest' result result' hi hj hresult hresult'
    obtain ⟨now, hnow, hsubcall⟩ := hallocated i toolCallId kind requestDigest result hi hresult
    obtain ⟨now', hnow', hsubcall'⟩ := hallocated j toolCallId kind' requestDigest' result' hj hresult'
    rw [hnow] at hnow'
    cases hnow'
    rw [hsubcall] at hsubcall'
    cases hsubcall'
    rfl

end play

end NexusClaw.AuditChain.StaticBinding
