import Mathlib.Data.List.Induction
import NexusClaw.AgentRuntime.Grants

/-!
# Retries of a tool

The body of a tool and the update that closes its record stand in one `try` block, and the retry loop
around it judges an exception of either by its text. `Attempt` follows one call of
`executeToolWithRetry` through its statements: behind an invocation that returned success there is
only the update that stores SUCCEEDED, and nothing behind that update unless it fails.
-/

namespace NexusClaw.AgentRuntime
open Concurrent
open Governance (Id)

/-! ## What a history says about invocations -/

/-- A run of a body. -/
def invoked : Sigma Stmt.Resp → Bool
  | ⟨.runTool _ _ _ _, _⟩ => true
  | _ => false

/-- A run of a body that returned success. -/
def succeeded : Sigma Stmt.Resp → Bool
  | ⟨.runTool _ _ _ _, .ok (.ok result)⟩ => result.success
  | _ => false

/-- A run of a body whose output the record can take. -/
def hasJsonOutput : Sigma Stmt.Resp → Bool
  | ⟨.runTool _ _ _ _, .ok (.ok result)⟩ => hasPreview result.output
  | _ => false

/-- An update of a tool call that changed its one record. -/
def updated : Sigma Stmt.Resp → Bool
  | ⟨.transitionToolCall _ _ _, .ok affected⟩ => affected = 1
  | _ => false

/-- An update that stored FAILED in the record. -/
def storedFailed (id : Id) : Sigma Stmt.Resp → Bool
  | ⟨.transitionToolCall target _ patch, .ok affected⟩ =>
    target = id && patch.status = .failed && affected ≠ 0
  | _ => false

/-- The record that was opened last. -/
def openedRecord (h : History Stmt Stmt.Resp) : Option Id :=
  h.reverse.findSome? fun
    | ⟨.createToolCall _, .ok record⟩ => some record.id
    | _ => none

/-- What a call promises: behind an invocation that returned success no body runs, and the record of
the invocation does not become FAILED. -/
structure NotRunAgain (h : History Stmt Stmt.Resp) : Prop where
  once : ∀ before o after, h = before ++ o :: after → succeeded o = true →
    ∀ o' ∈ after, invoked o' = false
  kept : ∀ before o after, h = before ++ o :: after → succeeded o = true →
    ∀ id, openedRecord before = some id → ∀ o' ∈ after, storedFailed id o' = false

/-- Each invocation that returned success can be finalized: its output is a JSON value without
reserved keys, or `undefined`, and the update that follows changes the record. -/
structure Finalizes (h : History Stmt Stmt.Resp) : Prop where
  output : ∀ o ∈ h, succeeded o = true → hasJsonOutput o = true
  update : ∀ before o o' after, h = before ++ o :: o' :: after → succeeded o = true →
    updated o' = true

/-! ## An attempt -/

/-- Where a call stands: `open` before a success, `returned` behind one, `settled` when its record
took it and `torn` when the record did not. -/
inductive Attempt where
  | opened
  | returned
  | settled
  | torn
deriving DecidableEq

/-- The attempt after one more statement was answered. -/
def Attempt.note : Attempt → (s : Stmt) → s.Resp → Attempt
  | .opened, s, r =>
    if succeeded ⟨s, r⟩ then if hasJsonOutput ⟨s, r⟩ then .returned else .torn else .opened
  | .returned, s, r => if updated ⟨s, r⟩ then .settled else .torn
  | .settled, _, _ => .settled
  | .torn, _, _ => .torn

/-- Behind a success only its own update is lawful, and behind that nothing. -/
def Attempt.law : Attempt → Stmt → Prop
  | .returned, s => ∃ id expected patch, s = .transitionToolCall id expected patch ∧
    patch.status = .succeeded
  | .settled, _ => False
  | _, _ => True

/-- An attempt that may still run a body. -/
def Attempt.Free (m : Attempt) : Prop :=
  m = .opened ∨ m = .torn

section attempt
variable {m : Attempt}

/-- A free attempt may issue anything. -/
lemma Attempt.Free.lawful (h : m.Free) (s : Stmt) : m.law s := by
  rcases h with rfl | rfl
  · trivial
  · trivial

/-- A statement that does not succeed leaves it free. -/
lemma Attempt.Free.note {s : Stmt} {r : s.Resp} (h : m.Free)
    (hs : succeeded ⟨s, r⟩ = false) : (m.note s r).Free := by
  rcases h with rfl | rfl
  · left
    simp only [Attempt.note, hs, Bool.false_eq_true, if_false]
  · exact .inr rfl

/-- A statement of the registry is no success. -/
lemma registry_not_succeeded {s : Stmt} (h : s.OfRegistry) (r : s.Resp) :
    succeeded ⟨s, r⟩ = false := by
  cases s <;> first | exact h.elim | rfl

/-- The frame of an attempt. -/
lemma attempt_frame : RegistryFrame Attempt.note Attempt.law Attempt.Free where
  lawful _ s _ h := h.lawful s
  keeps _ _ r hs h := h.note (registry_not_succeeded hs r)

/-- What a call of the registry ends with: the attempt is free, or it is settled and the result is a
success. -/
def AttemptPost (m : Attempt) (r : Except String ToolCallResult) : Prop :=
  m.Free ∨ (m = .settled ∧ ∃ result, r = .ok result ∧ result.success = true)

variable {invocation : Invocation} {tool : AgentTool} {input : Json} {context : ExecutionContext}

/-- What the body threw ends an attempt without success. -/
lemma executionThrew_attempt (call : ToolCallRecord) (error : String) (h : m.Free) :
    Tracked Attempt.note Attempt.law AttemptPost m (executionThrew call error) :=
  (attempt_frame.stretch (executionThrew_uses ..) h).post fun _ _ h => .inl h

/-- The update that stores SUCCEEDED settles the attempt where it changes the record, and else throws
into the `catch`. -/
lemma finalize_attempt {result : ToolCallResult} (hsuccess : result.success = true)
    (call : ToolCallRecord) {expected : List Governance.ToolCallStatus} {patch : ToolCallPatch}
    (hpatch : patch.status = .succeeded) :
    Tracked Attempt.note Attempt.law AttemptPost .returned
      ((transition call.id expected patch).attempt >>= fun finalized =>
        match finalized with
        | .error e => executionThrew call e
        | .ok _ => .ret result) := by
  have htransition : Tracked Attempt.note Attempt.law
      (fun m r => m.Free ∨ (m = .settled ∧ ∃ u, r = .ok u)) .returned
      (transition call.id expected patch) := by
    refine tracked_await_bind.2 ⟨⟨_, _, _, rfl, hpatch⟩, fun affected => tracked_ite.2
      ⟨fun hone => .inr ⟨?_, (), rfl⟩, fun hother => .inl (.inr ?_)⟩, fun e => .inl (.inr rfl)⟩
    · simp [Attempt.note, updated, hone]
    · simp [Attempt.note, updated, hother]
  refine tracked_attempt_bind htransition fun m r hm => ?_
  rcases hm with hfree | ⟨rfl, u, rfl⟩
  · cases r with
    | error e => exact executionThrew_attempt call e hfree
    | ok u => exact .inl hfree
  · exact .inr ⟨rfl, result, rfl, hsuccess⟩

/-- The run of the body with its record. -/
lemma runStaticTool_attempt (call : ToolCallRecord) (h : m.Free) :
    Tracked Attempt.note Attempt.law AttemptPost m
      (runStaticTool invocation tool input context call) := by
  refine (attempt_frame.stretch (transition_uses ..) h).bind (fun m _ h => ?_)
    fun _ _ h => .inl h
  refine tracked_await_bind.2 ⟨h.lawful _, fun result => ?_, fun e => .inl (h.note rfl)⟩
  cases result with
  | error e => exact executionThrew_attempt call e (h.note rfl)
  | ok result =>
    obtain ⟨success, output, error, permissionCheck, guardrailCheck, riskLevel, prepared⟩ := result
    cases success with
    | false =>
      refine (attempt_frame.stretch (finalizeCall_uses ..).attempt (h.note rfl)).bind
        (fun m finalized h => ?_) fun _ _ h => .inl h
      cases finalized with
      | error e => exact executionThrew_attempt call e h
      | ok _ => exact .inl h
    | true =>
      rcases h with rfl | rfl
      · show Tracked _ _ _ (if hasPreview output then Attempt.returned else Attempt.torn) _
        dsimp only
        -- the update of the record throws where the output has no preview
        by_cases hpreview : hasPreview output = true
        · rw [if_pos hpreview, finalizeCall_preview hpreview]
          exact finalize_attempt rfl call rfl
        · rw [if_neg hpreview, finalizeCall_refused hpreview]
          exact executionThrew_attempt call _ (.inr rfl)
      · refine (attempt_frame.stretch (finalizeCall_uses ..).attempt (.inr rfl)).bind
          (fun m finalized h => ?_) fun _ _ h => .inl h
        cases finalized with
        | error e => exact executionThrew_attempt call e h
        | ok _ => exact .inl h

variable {cfg : Config} {toolName : String}

/-- An attempt of a call. -/
lemma executeTool_attempt (h : m.Free) :
    Tracked Attempt.note Attempt.law AttemptPost m
      (executeTool cfg invocation toolName input context) :=
  attempt_frame.executeTool (fun _ _ h _ => .inl h)
    (fun _ _ call h _ => runStaticTool_attempt call h) h

/-- The retry loop: a settled attempt is a success, which is never repeated. -/
lemma retryTool_attempt (retries retryCount : Nat) (h : m.Free) :
    Tracked Attempt.note Attempt.law (fun _ _ => True) m
      (retryTool cfg invocation toolName input context retries retryCount) := by
  induction retries generalizing m retryCount with
  | zero =>
    refine tracked_attempt_bind (executeTool_attempt h) fun m r hr => ?_
    dsimp only
    refine tracked_ite.2 ⟨fun _ => trivial, fun _ => trivial⟩
  | succ retries ih =>
    refine tracked_attempt_bind (executeTool_attempt h) fun m r hr => ?_
    dsimp only
    refine tracked_ite.2 ⟨fun _ => trivial, fun hagain => tracked_ite.2 ⟨fun _ => ?_,
      fun _ => trivial⟩⟩
    rcases hr with hfree | ⟨_, result, rfl, hsuccess⟩
    · exact ih _ hfree
    · exact absurd (.inl hsuccess) hagain

end attempt

/-! ## What a lawful history looks like -/

section history
variable {h before after : History Stmt Stmt.Resp} {o : Sigma Stmt.Resp}

/-- The attempt after a history. -/
def attemptOf (h : History Stmt Stmt.Resp) : Attempt :=
  bookkeeping Attempt.note .opened h

/-- The attempt after one more statement. -/
lemma attemptOf_concat (h : History Stmt Stmt.Resp) (o : Sigma Stmt.Resp) :
    attemptOf (h ++ [o]) = (attemptOf h).note o.1 o.2 :=
  bookkeeping_concat h o.1 o.2

/-- An attempt that has returned stands right behind the success. -/
lemma returned_last (hreturned : attemptOf h = .returned) :
    ∃ before o, h = before ++ [o] ∧ succeeded o = true := by
  rcases List.eq_nil_or_concat h with rfl | ⟨before, o, rfl⟩
  · cases hreturned
  · rw [List.concat_eq_append] at hreturned ⊢
    refine ⟨before, o, rfl, ?_⟩
    rw [attemptOf_concat] at hreturned
    cases hm : attemptOf before with
    | opened =>
      rw [hm] at hreturned
      by_contra hno
      simp [Attempt.note, hno] at hreturned
    | returned =>
      rw [hm] at hreturned
      simp only [Attempt.note] at hreturned
      split_ifs at hreturned
    | settled => rw [hm] at hreturned; cases hreturned
    | torn => rw [hm] at hreturned; cases hreturned

/-- Where every success is finalized no attempt is torn. -/
lemma not_torn (hf : Finalizes h) (hsplit : h = before ++ after) : attemptOf before ≠ .torn := by
  induction before using List.reverseRecOn generalizing after with
  | nil => intro htorn; cases htorn
  | append_singleton before o ih =>
    have hsplit' : h = before ++ o :: after := by rw [hsplit, List.append_assoc]; rfl
    intro htorn
    rw [attemptOf_concat] at htorn
    cases hm : attemptOf before with
    | opened =>
      rw [hm] at htorn
      simp only [Attempt.note] at htorn
      split_ifs at htorn with hs hj
      exact hj (hf.output o (hsplit' ▸ List.mem_append_right _ (List.mem_cons_self ..)) hs)
    | returned =>
      obtain ⟨pre, success, rfl, hs⟩ := returned_last hm
      rw [hm] at htorn
      simp only [Attempt.note] at htorn
      split_ifs at htorn with hu
      refine hu (hf.update pre success o after ?_ hs)
      rw [hsplit', List.append_assoc]
      rfl
    | settled => rw [hm] at htorn; cases htorn
    | torn => exact ih hsplit' hm

/-- Behind a success there is at most the update that settles it. -/
lemma after_success (hl : Lawful Attempt.note Attempt.law .opened h) (hf : Finalizes h)
    (hsplit : h = before ++ o :: after) (hs : succeeded o = true) :
    ∀ o' ∈ after, ∃ id expected patch, o'.1 = .transitionToolCall id expected patch ∧
      patch.status = .succeeded := by
  have hsplit' : h = (before ++ [o]) ++ after := by rw [hsplit, List.append_assoc]; rfl
  have hbefore : attemptOf before = .opened := by
    cases hm : attemptOf before with
    | opened => rfl
    | returned =>
      have hlaw : Attempt.law (attemptOf before) o.1 := hl before o after hsplit
      rw [hm] at hlaw
      obtain ⟨id, expected, patch, heq, _⟩ := hlaw
      obtain ⟨s, r⟩ := o
      subst heq
      cases hs
    | settled =>
      have hlaw : Attempt.law (attemptOf before) o.1 := hl before o after hsplit
      rw [hm] at hlaw
      exact hlaw.elim
    | torn => exact absurd hm (not_torn hf hsplit)
  have hreturned : attemptOf (before ++ [o]) = .returned := by
    have hjson := hf.output o (hsplit ▸ List.mem_append_right _ (List.mem_cons_self ..)) hs
    rw [attemptOf_concat, hbefore]
    simp only [Attempt.note, hs, hjson, if_true]
  -- the record is updated next, and nothing comes behind the update
  cases after with
  | nil => exact fun _ ho' => by cases ho'
  | cons next rest =>
    have hlaw : Attempt.law (attemptOf (before ++ [o])) next.1 := hl _ next rest hsplit'
    have hupdated := hf.update before o next rest hsplit hs
    rw [hreturned] at hlaw
    have hsettled : attemptOf (before ++ [o] ++ [next]) = .settled := by
      rw [attemptOf_concat, hreturned]
      simp only [Attempt.note, hupdated, if_true]
    cases rest with
    | nil =>
      intro o' ho'
      obtain rfl := List.mem_singleton.1 ho'
      exact hlaw
    | cons last rest =>
      have hnone : Attempt.law (attemptOf (before ++ [o] ++ [next])) last.1 :=
        hl _ last rest (by rw [hsplit', List.append_assoc (before ++ [o])]; rfl)
      rw [hsettled] at hnone
      exact hnone.elim

/-- A lawful history in which every success is finalized keeps the promise. -/
lemma notRunAgain_of_lawful (hl : Lawful Attempt.note Attempt.law .opened h) (hf : Finalizes h) :
    NotRunAgain h := by
  constructor
  · intro before o after hsplit hs o' ho'
    obtain ⟨id, expected, patch, heq, _⟩ := after_success hl hf hsplit hs o' ho'
    obtain ⟨s, r⟩ := o'
    subst heq
    rfl
  · intro before o after hsplit hs id _ o' ho'
    obtain ⟨target, expected, patch, heq, hstatus⟩ := after_success hl hf hsplit hs o' ho'
    obtain ⟨s, r⟩ := o'
    subst heq
    cases r with
    | error e => rfl
    | ok affected => simp [storedFailed, hstatus]

end history

/-! ## A tool that succeeded is not run again -/

/-- In every interleaving of a call with other programs, and whatever the store, the ports and the
tool do: if each invocation that returned success is finalized, none is run again or stored as
FAILED. -/
theorem not_run_again {ι : Type} [DecidableEq ι] (cfg : Config) (ans : Answers) (w : World)
    (p : ι → Act RetriedResult) (i : ι) (invocation : Invocation) (toolName : String)
    (toolInput : Json) (context : ExecutionContext)
    (hp : p i = executeToolWithRetry cfg invocation toolName toolInput context) (sched : List ι)
    (hf : Finalizes (((Pool.start w p).play (exec ans) sched).seen i)) :
    NotRunAgain (((Pool.start w p).play (exec ans) sched).seen i) := by
  have hcall : Tracked Attempt.note Attempt.law (fun _ _ => True) .opened (p i) := by
    rw [hp]
    exact retryTool_attempt _ _ (.inl rfl)
  exact notRunAgain_of_lawful (hcall.lawful w sched) hf

/-! ### A tool behind a store that fails -/

/-- What `Finalizes` says, read from the front. -/
def finalizesFrom : History Stmt Stmt.Resp → Bool
  | [] => true
  | o :: rest =>
    (!succeeded o || (hasJsonOutput o && rest.head?.all updated)) && finalizesFrom rest

/-- The test of a history for its end. -/
lemma finalizes_of_check {h : History Stmt Stmt.Resp} (hcheck : finalizesFrom h = true) :
    Finalizes h := by
  induction h with
  | nil =>
    constructor
    · intro o ho
      cases ho
    · intro before o o' after hsplit
      simp at hsplit
  | cons first rest ih =>
    simp only [finalizesFrom, Bool.and_eq_true, Bool.or_eq_true, Bool.not_eq_true'] at hcheck
    obtain ⟨hfirst, hrest⟩ := hcheck
    have hf := ih hrest
    constructor
    · intro o ho hs
      rcases List.mem_cons.1 ho with rfl | ho
      · rcases hfirst with hno | hyes
        · rw [hs] at hno; cases hno
        · exact hyes.1
      · exact hf.output o ho hs
    · intro before o o' after hsplit hs
      cases before with
      | nil =>
        obtain ⟨rfl, rfl⟩ := List.cons.inj hsplit
        rcases hfirst with hno | hyes
        · rw [hs] at hno; cases hno
        · exact hyes.2
      | cons _ before =>
        obtain ⟨_, hsplit⟩ := List.cons.inj hsplit
        exact hf.update before o o' after hsplit hs

/-- That no body runs behind a success, read from the front. -/
def runsOnceFrom : History Stmt Stmt.Resp → Bool
  | [] => true
  | o :: rest => (!succeeded o || rest.all fun o' => !invoked o') && runsOnceFrom rest

/-- The test of a history for a second run. -/
lemma NotRunAgain.check {h : History Stmt Stmt.Resp} (hn : NotRunAgain h) :
    runsOnceFrom h = true := by
  have hsplit : ∀ rest before, h = before ++ rest → runsOnceFrom rest = true := by
    intro rest
    induction rest with
    | nil => exact fun _ _ => rfl
    | cons o rest ih =>
      intro before heq
      have hrest := ih (before ++ [o]) (by rw [heq, List.append_assoc]; rfl)
      simp only [runsOnceFrom, hrest, Bool.and_true, Bool.or_eq_true, Bool.not_eq_true',
        List.all_eq_true]
      cases hs : succeeded o with
      | false => exact .inl rfl
      | true => exact .inr fun o' ho' => hn.once before o rest heq hs o' ho'
  exact hsplit h [] rfl

/-- A tool that sends a message. -/
def notifier : AgentTool where
  name := "message.send"
  category := "external"
  inputSchema := .empty
  objectApiName := none
  operation := none
  riskLevel := "L2"
  preparesApproval := false

/-- The context of an agent that may send messages, with the default number of retries. -/
def notifying : ExecutionContext :=
  let context := contextFor
    { id := 1
      workspaceId := 1
      guardrailRules := { allowedTools := ["message.send"] } }
    1 7 3 (.agent, 2) (.own none) none [] []
  { context with constraints := { context.constraints with maxToolRetryAttempts := none } }

/-- The tool sends the message, and the store fails at the given points. -/
def Answers.sending (fails : Nat → Option String) : Answers :=
  { Answers.smooth fun _ => 0 with
    fails
    toolBody := fun _ =>
      .ok
        { success := true
          output := .json .null
          permissionCheck := .passed
          guardrailCheck := .passed } }

/-- What a call of the tool has done. -/
def sendingUnder (fails : Nat → Option String) : History Stmt Stmt.Resp :=
  ((Pool.start (World.fresh [] [] []) fun _ : Unit =>
      executeToolWithRetry { Config.small greeting with tools := [notifier] }
        { call := 0, approval := none } "message.send" .empty notifying).play
    (exec (Answers.sending fails)) (List.replicate 9 ())).seen ()

/-- Where the record takes the result, the message is sent once. -/
theorem sent_not_run_again : NotRunAgain (sendingUnder fun _ => none) :=
  not_run_again { Config.small greeting with tools := [notifier] } (Answers.sending fun _ => none)
    (World.fresh [] [] []) _ () { call := 0, approval := none } "message.send" .empty notifying rfl
    (List.replicate 9 ()) (finalizes_of_check (by decide +kernel))

/-- The network of the store is down while the record is closed: the text of that error makes the
loop repeat the call, and the message is sent a second time. -/
theorem sent_twice :
    ¬ NotRunAgain (sendingUnder fun n => if n = 3 ∨ n = 4 then some "network down" else none) := by
  intro hn
  exact absurd hn.check (by decide +kernel)

end NexusClaw.AgentRuntime
