import NexusClaw.Json

/-!
# The Python client's wrapped tool

`adapters/python/src/agent_governance/client.py`: one call of a function wrapped by `wrap_tool`,
against a sidecar that may answer anything. A `Sidecar` is what it answers during the call: the
body of `POST /gate`, the bodies of the polls that are made before the deadline, and the body of
`POST /gate/:id/complete`; a transport that raises is an answer as well. The `Outcome` of a call is
everything the client did, in order, and how the call ended.

The wrapper names two decisions and runs the function on every other one, so it fails closed up to
the answers of `Unrecognised`.
-/

namespace NexusClaw.PythonClient

/-! ## Exceptions and reads -/

/-- What a call raises. An exception that is no `Exception` (a `KeyboardInterrupt`) passes by the
handlers of the client. -/
inductive Raised where
  | denied (reason : Json)
  | pendingApproval (executionId approvalId : Json) (toolName : String) (riskLevel : Json)
  | keyError (key : String)
  | attributeError
  | typeError
  | other (ordinary : Bool) (text : String)

/-- `isinstance(error, Exception)` -/
def Raised.ordinary : Raised → Bool
  | .other b _ => b
  | _ => true

/-- `str(error)` of what a wrapped function raises; the client's own exceptions have texts that
nothing here reads. -/
def Raised.text : Raised → String
  | .other _ text => text
  | .keyError key => key
  | _ => ""

abbrev Reply := Except Raised Json

/-- `value[key]` -/
def getItem (key : String) : Json → Reply
  | .obj fields =>
    match fields.lookup key with
    | some value => .ok value
    | none => .error (.keyError key)
  | _ => .error .typeError

/-- `value.get(key)`, with `none` for a key that is not there. -/
def getKey (key : String) : Json → Except Raised (Option Json)
  | .obj fields => .ok (fields.lookup key)
  | _ => .error .attributeError

/-- `value == text` -/
def isText (value : Option Json) (text : String) : Bool :=
  value.bind Json.asString = some text

/-- A value that is a text. -/
@[simp] lemma isText_iff (value : Option Json) (text : String) :
    isText value text = true ↔ value = some (.str text) := by
  rcases value with _ | (_ | _ | _ | s | _ | _) <;> simp [isText, Json.asString]

/-! ## The wrapper -/

inductive Event where
  | gate (toolName : String) (args : List Json) (kwargs : List (String × Json)) (reply : Reply)
  | poll (executionId : Json) (reply : Reply)
  | invoke (args : List Json) (kwargs : List (String × Json))
  | complete (executionId : Json) (success : Bool) (output : Json) (reply : Reply)

/-- What the sidecar answers during one call. -/
structure Sidecar where
  gate : Reply
  polls : List Reply
  complete : Reply

/-- A wrapped function with the arguments of one call. -/
structure Wrapped where
  toolName : String
  wait : Bool
  fn : List Json → List (String × Json) → Reply
  args : List Json
  kwargs : List (String × Json)

structure Outcome where
  trace : List Event
  result : Reply

namespace Outcome

def raising (e : Raised) : Outcome :=
  ⟨[], .error e⟩

/-- The event, and then what follows. -/
def after (event : Event) (rest : Outcome) : Outcome :=
  ⟨event :: rest.trace, rest.result⟩

/-- Raising shows nothing. -/
@[simp] lemma trace_raising (e : Raised) : (raising e).trace = [] := rfl

/-- What comes after an event. -/
@[simp] lemma trace_after (event : Event) (rest : Outcome) :
    (after event rest).trace = event :: rest.trace := rfl

/-- Raising gives an error. -/
@[simp] lemma result_raising (e : Raised) : (raising e).result = .error e := rfl

/-- The result after an event. -/
@[simp] lemma result_after (event : Event) (rest : Outcome) :
    (after event rest).result = rest.result := rfl

end Outcome
open Outcome

/-- The value a step gives, or the end of the call with what it raises. -/
def orRaise {α : Type} (step : Except Raised α) (next : α → Outcome) : Outcome :=
  match step with
  | .error e => raising e
  | .ok value => next value

/-- A value goes on. -/
@[simp] lemma orRaise_ok {α : Type} (value : α) (next : α → Outcome) :
    orRaise (.ok value) next = next value := rfl

/-- The outcome that the `finally` block reports. -/
def reported (returned : Reply) : Bool × Json :=
  match returned with
  | .ok output => (true, output)
  | .error e => if e.ordinary then (false, .obj [("error", .str e.text)]) else (true, .null)

def runAndComplete (s : Sidecar) (f : Wrapped) (executionId : Json) : Outcome :=
  let returned := f.fn f.args f.kwargs
  let outcome := reported returned
  { trace :=
      [.invoke f.args f.kwargs, .complete executionId outcome.1 outcome.2 s.complete]
    result :=
      match s.complete with
      | .ok _ => returned
      -- an ordinary exception of the report never masks the result of the tool
      | .error e => if e.ordinary then returned else .error e }

/-- The report never masks what the function gave. -/
lemma runAndComplete_result (s : Sidecar) (f : Wrapped) (executionId : Json)
    (ordinary : ∀ e, s.complete = .error e → e.ordinary = true) :
    (runAndComplete s f executionId).result = f.fn f.args f.kwargs := by
  unfold runAndComplete
  cases complete_eq : s.complete with
  | ok _ => rfl
  | error e => exact if_pos (ordinary e complete_eq)

/-- `self.execution(execution_id)["execution"]["status"]` -/
def statusOf (reply : Reply) : Reply := do
  let body ← reply
  let execution ← getItem "execution" body
  getItem "status" execution

/-- The polling loop; the list ends where the deadline has passed. -/
def waitAndRun (s : Sidecar) (f : Wrapped) (executionId : Json) : List Reply → Outcome
  | [] =>
    raising (.pendingApproval executionId (.str "?") f.toolName (.str "poll-timeout"))
  | reply :: polls =>
    after (.poll executionId reply) <|
      orRaise (statusOf reply) fun status =>
        if isText (some status) "cancelled" then
          raising (.denied (.str (f.toolName ++ ": approval rejected")))
        else if isText (some status) "running" then runAndComplete s f executionId
        else waitAndRun s f executionId polls

/-- The branches of the wrapper on the body of `POST /gate`. -/
def dispatch (s : Sidecar) (f : Wrapped) (body : Json) : Outcome :=
  orRaise (getKey "decision" body) fun decision =>
    if isText decision "blocked" then
      orRaise (getKey "reason" body) fun reason =>
        raising (.denied (reason.getD (.str "BLOCKED")))
    else if isText decision "paused" then
      if f.wait then
        orRaise (getItem "executionId" body) fun executionId =>
          waitAndRun s f executionId s.polls
      else
        orRaise (getItem "executionId" body) fun executionId =>
          orRaise (getItem "approvalId" body) fun approvalId =>
            orRaise (getKey "riskLevel" body) fun riskLevel =>
              raising (.pendingApproval executionId approvalId f.toolName
                (riskLevel.getD (.str "?")))
    else
      orRaise (getItem "executionId" body) fun executionId =>
        runAndComplete s f executionId

def wrapper (s : Sidecar) (f : Wrapped) : Outcome :=
  after (.gate f.toolName f.args f.kwargs s.gate) (orRaise s.gate (dispatch s f))

/-! ## Failing closed -/

def Event.isInvoke : Event → Bool
  | .invoke _ _ => true
  | _ => false

/-- How often the function was invoked. -/
def invocations (trace : List Event) : Nat :=
  trace.countP Event.isInvoke

/-- The gate answered with exactly this decision. -/
def GateDecided (trace : List Event) (decision : String) : Prop :=
  ∃ toolName args kwargs fields,
    Event.gate toolName args kwargs (.ok (.obj fields)) ∈ trace ∧
      fields.lookup "decision" = some (.str decision)

/-- A poll reported the status `running`. -/
def PolledRunning (trace : List Event) : Prop :=
  ∃ executionId reply,
    Event.poll executionId reply ∈ trace ∧ statusOf reply = .ok (.str "running")

/-- What happened so far permits the function to run. -/
def Permits (wait : Bool) (trace : List Event) : Prop :=
  GateDecided trace "allow" ∨ (wait = true ∧ GateDecided trace "paused" ∧ PolledRunning trace)

/-- At most one invocation, each after a permit; without a permit the call raises and nothing was
invoked. -/
structure FailsClosed (wait : Bool) (o : Outcome) : Prop where
  once : invocations o.trace ≤ 1
  permitted : ∀ before args kwargs rest,
    o.trace = before ++ .invoke args kwargs :: rest → Permits wait before
  raises : ¬ Permits wait o.trace → invocations o.trace = 0 ∧ ∃ e, o.result = .error e

/-- An answer that names an execution, with a decision missing or other than the three. -/
def Unrecognised (reply : Reply) : Prop :=
  ∃ fields executionId, reply = .ok (.obj fields) ∧
    fields.lookup "executionId" = some executionId ∧
    fields.lookup "decision" ≠ some (.str "allow") ∧
    fields.lookup "decision" ≠ some (.str "paused") ∧
    fields.lookup "decision" ≠ some (.str "blocked")

/-! ### What the two ways of ending have -/

/-- The call ended with an exception and the function was not invoked. -/
def Quiet (o : Outcome) : Prop :=
  invocations o.trace = 0 ∧ ∃ e, o.result = .error e

/-- The function was invoked once, right after these events. -/
def RunsAfter (before : List Event) (o : Outcome) : Prop :=
  invocations before = 0 ∧
    ∃ args kwargs executionId success output reply,
      o.trace = before ++ [.invoke args kwargs, .complete executionId success output reply]

/-- The calls of two traces. -/
lemma invocations_append (xs ys : List Event) :
    invocations (xs ++ ys) = invocations xs + invocations ys :=
  List.countP_append

/-- The calls of a trace, one event after the other. -/
lemma invocations_cons (event : Event) (rest : List Event) :
    invocations (event :: rest) = invocations rest + (if event.isInvoke then 1 else 0) := by
  simp [invocations, List.countP_cons]

/-- Without a call no event is one. -/
lemma isInvoke_of_mem {trace : List Event} (none_invoked : invocations trace = 0) {event : Event}
    (mem : event ∈ trace) : event.isInvoke = false := by
  have := List.countP_eq_zero.mp none_invoked event mem
  simpa using this

/-- Raising is quiet. -/
lemma Quiet.raising (e : Raised) : Quiet (raising e) :=
  ⟨rfl, e, rfl⟩

/-- An event that is no call stays quiet. -/
lemma Quiet.after {event : Event} (silent : event.isInvoke = false) {rest : Outcome}
    (quiet : Quiet rest) : Quiet (after event rest) := by
  obtain ⟨none_invoked, raised⟩ := quiet
  refine ⟨?_, raised⟩
  rw [trace_after, invocations_cons, none_invoked, silent]
  rfl

/-- What runs after an event that is no call. -/
lemma RunsAfter.after {event : Event} (silent : event.isInvoke = false) {before : List Event}
    {rest : Outcome} (runs : RunsAfter before rest) :
    RunsAfter (event :: before) (after event rest) := by
  obtain ⟨none_invoked, args, kwargs, executionId, success, output, reply, same⟩ := runs
  constructor
  · rw [invocations_cons, none_invoked, silent]
    rfl
  · exact ⟨args, kwargs, executionId, success, output, reply, by rw [trace_after, same]; rfl⟩

/-- The function runs once, and its end is told. -/
lemma RunsAfter.runAndComplete (s : Sidecar) (f : Wrapped) (executionId : Json) :
    RunsAfter [] (runAndComplete s f executionId) :=
  ⟨rfl, _, _, _, _, _, _, rfl⟩

/-- A longer trace. -/
lemma GateDecided.mono {trace longer : List Event} {decision : String}
    (sub : ∀ event ∈ trace, event ∈ longer) (decided : GateDecided trace decision) :
    GateDecided longer decision := by
  obtain ⟨toolName, args, kwargs, fields, mem, decision_eq⟩ := decided
  exact ⟨toolName, args, kwargs, fields, sub _ mem, decision_eq⟩

/-- A longer trace permits what the shorter does. -/
lemma Permits.mono {wait : Bool} {trace longer : List Event}
    (sub : ∀ event ∈ trace, event ∈ longer) (permits : Permits wait trace) :
    Permits wait longer := by
  rcases permits with allowed | ⟨waits, paused, executionId, reply, mem, running⟩
  · exact .inl (allowed.mono sub)
  · exact .inr ⟨waits, paused.mono sub, executionId, reply, sub _ mem, running⟩

/-- A call that invokes nothing and raises fails closed. -/
lemma FailsClosed.of_quiet (wait : Bool) {o : Outcome} (quiet : Quiet o) : FailsClosed wait o := by
  obtain ⟨none_invoked, raised⟩ := quiet
  constructor
  · rw [none_invoked]
    exact Nat.zero_le 1
  · intro before args kwargs rest same
    have silent : (Event.invoke args kwargs).isInvoke = false :=
      isInvoke_of_mem none_invoked (by simp [same])
    cases silent
  · intro _
    exact ⟨none_invoked, raised⟩

/-- A call that invokes the function once fails closed if what came before permits it. -/
lemma FailsClosed.of_runsAfter {wait : Bool} {before : List Event} {o : Outcome}
    (runs : RunsAfter before o) (permits : Permits wait before) : FailsClosed wait o := by
  obtain ⟨none_invoked, args, kwargs, executionId, success, output, reply, same⟩ := runs
  constructor
  · rw [same, invocations_append, none_invoked]
    exact Nat.le_refl 1
  · intro earlier args' kwargs' rest same'
    -- the invocation is no event of `before`, so `before` is a part of what came earlier
    rw [same] at same'
    rcases List.append_eq_append_iff.mp same' with
      ⟨middle, earlier_eq, _⟩ | ⟨middle, before_eq, rest_eq⟩
    · apply permits.mono
      intro event mem
      rw [earlier_eq]
      exact List.mem_append_left middle mem
    · cases middle with
      | nil => rwa [before_eq, List.append_nil] at permits
      | cons event more =>
        have head_eq : Event.invoke args' kwargs' = event := (List.cons.inj rest_eq).1
        have silent : event.isInvoke = false := isInvoke_of_mem none_invoked (by simp [before_eq])
        rw [← head_eq] at silent
        cases silent
  · intro refused
    apply absurd _ refused
    apply permits.mono
    intro event mem
    rw [same]
    exact List.mem_append_left _ mem

/-! ### What the wrapper does -/

/-- A step that ends the call is quiet; otherwise the rest decides. -/
lemma orRaise_cases {α : Type} {P : Outcome → Prop} (raised : ∀ e, P (raising e))
    {step : Except Raised α} {next : α → Outcome}
    (goes_on : ∀ value, step = .ok value → P (next value)) :
    P (orRaise step next) := by
  cases step with
  | error e => exact raised e
  | ok value => exact goes_on value rfl

/-- The polling loop ends quietly, or runs the function after a poll that reported `running`. -/
lemma waitAndRun_cases (s : Sidecar) (f : Wrapped) (executionId : Json) (polls : List Reply) :
    Quiet (waitAndRun s f executionId polls) ∨
      ∃ before, RunsAfter before (waitAndRun s f executionId polls) ∧ PolledRunning before := by
  induction polls with
  | nil => exact .inl (Quiet.raising _)
  | cons reply polls ih =>
    unfold waitAndRun
    cases status_eq : statusOf reply with
    | error e => exact .inl ((Quiet.raising e).after rfl)
    | ok status =>
      dsimp only [orRaise]
      split_ifs with cancelled running
      · exact .inl ((Quiet.raising _).after rfl)
      · -- approved: the poll that said so is the last event before the invocation
        refine .inr ⟨[.poll executionId reply], (RunsAfter.runAndComplete s f _).after rfl, ?_⟩
        have := (isText_iff _ _).mp running
        cases this
        exact ⟨executionId, reply, List.mem_singleton.mpr rfl, status_eq⟩
      · rcases ih with quiet | ⟨before, runs, executionId', reply', mem, polled⟩
        · exact .inl (quiet.after rfl)
        · exact .inr ⟨_, runs.after rfl, executionId', reply', List.mem_cons_of_mem _ mem, polled⟩

/-- The decision that a body names. -/
lemma getKey_ok {key : String} {body : Json} {value : Option Json}
    (same : getKey key body = .ok value) :
    ∃ fields, body = .obj fields ∧ fields.lookup key = value := by
  cases body with
  | obj fields => exact ⟨fields, rfl, by cases same; rfl⟩
  | _ => cases same

/-- A member of an object. -/
lemma getItem_obj_ok {key : String} {fields : List (String × Json)} {value : Json}
    (same : getItem key (.obj fields) = .ok value) : fields.lookup key = some value := by
  cases lookup_eq : fields.lookup key with
  | none =>
    simp only [getItem, lookup_eq] at same
    cases same
  | some found =>
    simp only [getItem, lookup_eq] at same
    cases same
    rfl

/-- A call ends quietly, or runs the function after a permit, or after an answer that names no
decision the wrapper knows. -/
lemma wrapper_cases (s : Sidecar) (f : Wrapped) :
    Quiet (wrapper s f) ∨
      ∃ before, RunsAfter before (wrapper s f) ∧ (Permits f.wait before ∨ Unrecognised s.gate) := by
  unfold wrapper
  cases gate_eq : s.gate with
  | error e => exact .inl ((Quiet.raising e).after rfl)
  | ok body =>
    change Quiet (after _ (dispatch s f body)) ∨ _
    cases decision_eq : getKey "decision" body with
    | error e =>
      refine .inl (Quiet.after rfl ?_)
      rw [dispatch, decision_eq]
      exact Quiet.raising e
    | ok decision =>
      obtain ⟨fields, rfl, lookup_eq⟩ := getKey_ok decision_eq
      change Quiet (after _ (dispatch s f (.obj fields))) ∨
        ∃ before, RunsAfter before (after _ (dispatch s f (.obj fields))) ∧ _
      rw [dispatch, decision_eq, orRaise_ok]
      split_ifs with blocked paused waits
      · exact .inl (Quiet.after rfl (orRaise_cases Quiet.raising fun _ _ => Quiet.raising _))
      · -- paused, and the caller waits
        cases id_eq : getItem "executionId" (.obj fields) with
        | error e => exact .inl ((Quiet.raising e).after rfl)
        | ok executionId =>
          rcases waitAndRun_cases s f executionId s.polls with
            quiet | ⟨before, runs, _, reply, mem, polled⟩
          · exact .inl (quiet.after rfl)
          · refine .inr ⟨_, runs.after rfl, .inl (.inr ⟨waits, ?_, ?_⟩)⟩
            · have named := lookup_eq.trans ((isText_iff _ _).mp paused)
              exact ⟨_, _, _, fields, List.mem_cons_self, named⟩
            · exact ⟨_, reply, List.mem_cons_of_mem _ mem, polled⟩
      · -- paused, and the caller does not wait
        refine .inl (Quiet.after rfl ?_)
        exact orRaise_cases Quiet.raising fun _ _ => orRaise_cases Quiet.raising fun _ _ =>
          orRaise_cases Quiet.raising fun _ _ => Quiet.raising _
      · -- every other decision: the function runs
        cases id_eq : getItem "executionId" (.obj fields) with
        | error e => exact .inl ((Quiet.raising e).after rfl)
        | ok executionId =>
          refine .inr ⟨_, (RunsAfter.runAndComplete s f executionId).after rfl, ?_⟩
          by_cases allowed : fields.lookup "decision" = some (.str "allow")
          · exact .inl (.inl ⟨_, _, _, fields, List.mem_cons_self, allowed⟩)
          · refine .inr ⟨fields, executionId, rfl, getItem_obj_ok id_eq, allowed, ?_, ?_⟩
            · intro same
              exact paused ((isText_iff _ _).mpr (lookup_eq.symm.trans same))
            · intro same
              exact blocked ((isText_iff _ _).mpr (lookup_eq.symm.trans same))

/-- On an unrecognised answer the function runs right after the gate. -/
lemma wrapper_of_unrecognised {s : Sidecar} (f : Wrapped) (unrecognised : Unrecognised s.gate) :
    ∃ executionId, (wrapper s f).trace =
      .gate f.toolName f.args f.kwargs s.gate :: (runAndComplete s f executionId).trace := by
  obtain ⟨fields, executionId, gate_eq, id_eq, _, not_paused, not_blocked⟩ := unrecognised
  refine ⟨executionId, ?_⟩
  have decision_eq : getKey "decision" (.obj fields) = .ok (fields.lookup "decision") := rfl
  have item_eq : getItem "executionId" (.obj fields) = .ok executionId := by
    simp only [getItem, id_eq]
  rw [wrapper, gate_eq]
  change _ :: (dispatch s f (.obj fields)).trace = _
  rw [dispatch, decision_eq]
  dsimp only [orRaise]
  rw [if_neg, if_neg, item_eq]
  · exact fun same => not_paused ((isText_iff _ _).mp same)
  · exact fun same => not_blocked ((isText_iff _ _).mp same)

/-- A call fails closed exactly when the gate's answer is not an unrecognised one. -/
theorem failsClosed_iff (s : Sidecar) (f : Wrapped) :
    FailsClosed f.wait (wrapper s f) ↔ ¬ Unrecognised s.gate := by
  constructor
  · rintro closed unrecognised
    obtain ⟨executionId, trace_eq⟩ := wrapper_of_unrecognised f unrecognised
    have permits :=
      closed.permitted [.gate f.toolName f.args f.kwargs s.gate] f.args f.kwargs _ trace_eq
    obtain ⟨fields, _, gate_eq, _, not_allow, not_paused, _⟩ := unrecognised
    -- the only event before the invocation is the gate's answer
    have decided : ∀ {decision : String},
        GateDecided [.gate f.toolName f.args f.kwargs s.gate] decision →
          fields.lookup "decision" = some (.str decision) := by
      rintro decision ⟨_, _, _, fields', mem, same⟩
      have := List.mem_singleton.mp mem
      rw [gate_eq] at this
      cases this
      exact same
    rcases permits with allowed | ⟨_, paused, _⟩
    · exact not_allow (decided allowed)
    · exact not_paused (decided paused)
  · intro recognised
    rcases wrapper_cases s f with quiet | ⟨before, runs, permits | unrecognised⟩
    · exact .of_quiet f.wait quiet
    · exact .of_runsAfter runs permits
    · exact absurd unrecognised recognised

/-- An answer without a decision: the function runs. -/
theorem no_decision_runs :
    ¬ ∀ (s : Sidecar) (f : Wrapped), FailsClosed f.wait (wrapper s f) := by
  intro closed
  have permits := (closed
    { gate := .ok (.obj [("executionId", .str "e1")]), polls := [], complete := .ok .null }
    { toolName := "crm.send", wait := false, fn := fun _ _ => .ok .null, args := [], kwargs := [] }
    ).raises
  refine absurd (permits ?_).1 (by decide)
  rintro (⟨_, _, _, fields, mem, decided⟩ | ⟨waits, _⟩)
  · simp only [wrapper, trace_after, List.mem_cons] at mem
    rcases mem with same | mem
    · cases same
      cases decided
    · simp [orRaise, dispatch, getKey, getItem, isText, List.lookup_cons, List.lookup_nil, runAndComplete] at mem
  · cases waits

end NexusClaw.PythonClient
