import NexusClaw.Concurrent.Serial
import NexusClaw.Concurrent.Window
import Mathlib.Logic.Function.Basic

/-!
# The limits of the playground

`community-playground.registry.ts` and the places where it is asked: `createSession` checks before its
first await and registers after its last one, `communityExecuteAgent` checks and counts in one go,
recycling forgets a session, and the sweep at the start clears the registry. The clock may show any
time.
-/

namespace NexusClaw.Community.Playground

open Concurrent

/-! ## The registry -/

structure PlaygroundSessionInfo where
  workspaceId : String
  userId : String
  roleId : String
  ip : String
  lastActiveAt : Int
  executions : Nat := 0
  decisions : Nat := 0
deriving DecidableEq, Repr

structure IpWindow where
  windowStart : Int
  sessions : Nat := 0
  executions : Nat := 0
deriving DecidableEq, Repr

structure PlaygroundLimits where
  sessionsPerIpPerHour : Nat
  executionsPerIpPerHour : Nat
  executionsPerSession : Nat
  maxConcurrentSessions : Nat
  ttlMinutes : Nat

/-- `PLAYGROUND_LIMITS` -/
def playgroundLimits : PlaygroundLimits where
  sessionsPerIpPerHour := 3
  executionsPerIpPerHour := 20
  executionsPerSession := 10
  maxConcurrentSessions := 200
  ttlMinutes := 30

/-- `HOUR_MS` -/
def hourMs : Int := 3600000

structure HttpException where
  message : String
  status : Nat
deriving DecidableEq, Repr

/-- The two maps; `sessions` in the order of insertion. -/
structure PlaygroundSessionRegistry where
  sessions : List PlaygroundSessionInfo
  ipWindows : String → Option IpWindow

namespace PlaygroundSessionRegistry

def empty : PlaygroundSessionRegistry where
  sessions := []
  ipWindows := fun _ => none

def size (r : PlaygroundSessionRegistry) : Nat :=
  r.sessions.length

/-- `this.sessions.get(workspaceId)` -/
def session (r : PlaygroundSessionRegistry) (workspaceId : String) : Option PlaygroundSessionInfo :=
  r.sessions.find? fun info => info.workspaceId = workspaceId

def isPlayground (r : PlaygroundSessionRegistry) (workspaceId : String) : Bool :=
  (r.session workspaceId).isSome

/-- A change of the session object of a workspace. -/
def modify (r : PlaygroundSessionRegistry) (workspaceId : String)
    (f : PlaygroundSessionInfo → PlaygroundSessionInfo) : PlaygroundSessionRegistry :=
  { r with
    sessions := r.sessions.map fun info => if info.workspaceId = workspaceId then f info else info }

/-- `this.ipWindows.set(ip, window)` -/
def setWindow (r : PlaygroundSessionRegistry) (ip : String) (window : IpWindow) :
    PlaygroundSessionRegistry :=
  { r with ipWindows := Function.update r.ipWindows ip (some window) }

def touch (r : PlaygroundSessionRegistry) (now : Int) (workspaceId : String) :
    PlaygroundSessionRegistry :=
  r.modify workspaceId fun info => { info with lastActiveAt := now }

def windowFor (r : PlaygroundSessionRegistry) (now : Int) (ip : String) :
    IpWindow × PlaygroundSessionRegistry :=
  match r.ipWindows ip with
  | some existing =>
    if hourMs ≤ now - existing.windowStart then
      ({ windowStart := now }, r.setWindow ip { windowStart := now })
    else (existing, r)
  | none => ({ windowStart := now }, r.setWindow ip { windowStart := now })

/-- `assertSessionAllowed`: what it throws, and the registry after it. -/
def assertSessionAllowed (r : PlaygroundSessionRegistry) (now : Int) (ip : String) :
    Option HttpException × PlaygroundSessionRegistry :=
  let (window, r) := r.windowFor now ip
  if playgroundLimits.sessionsPerIpPerHour ≤ window.sessions then
    (some ⟨"PLAYGROUND_SESSION_RATE_LIMIT", 429⟩, r)
  else if playgroundLimits.maxConcurrentSessions ≤ r.size then (some ⟨"PLAYGROUND_CAPACITY", 503⟩, r)
  else (none, r)

/-- `this.sessions.set(info.workspaceId, info)` -/
def setSession (r : PlaygroundSessionRegistry) (info : PlaygroundSessionInfo) :
    PlaygroundSessionRegistry :=
  if r.isPlayground info.workspaceId then r.modify info.workspaceId fun _ => info
  else { r with sessions := r.sessions ++ [info] }

def register (r : PlaygroundSessionRegistry) (now : Int) (info : PlaygroundSessionInfo) :
    PlaygroundSessionRegistry :=
  let (window, r) := r.windowFor now info.ip
  (r.setWindow info.ip { window with sessions := window.sessions + 1 }).setSession info

def assertExecutionAllowed (r : PlaygroundSessionRegistry) (now : Int) (workspaceId : String) :
    Option HttpException × PlaygroundSessionRegistry :=
  match r.session workspaceId with
  | none => (none, r)
  | some session =>
    if playgroundLimits.executionsPerSession ≤ session.executions then
      (some ⟨"PLAYGROUND_SESSION_EXECUTION_LIMIT", 429⟩, r)
    else
      let (window, r) := r.windowFor now session.ip
      if playgroundLimits.executionsPerIpPerHour ≤ window.executions then
        (some ⟨"PLAYGROUND_EXECUTION_RATE_LIMIT", 429⟩, r)
      else (none, r)

def countExecution (r : PlaygroundSessionRegistry) (now : Int) (workspaceId : String) :
    PlaygroundSessionRegistry :=
  match r.session workspaceId with
  | none => r
  | some session =>
    let r := r.modify workspaceId fun info =>
      { info with executions := info.executions + 1, lastActiveAt := now }
    let (window, r) := r.windowFor now session.ip
    r.setWindow session.ip { window with executions := window.executions + 1 }

def countDecision (r : PlaygroundSessionRegistry) (now : Int) (workspaceId : String) :
    PlaygroundSessionRegistry :=
  r.touch now workspaceId

def expiredWorkspaceIds (r : PlaygroundSessionRegistry) (now : Int) : List String :=
  (r.sessions.filter fun info =>
    (playgroundLimits.ttlMinutes * 60000 : Int) ≤ now - info.lastActiveAt).map (·.workspaceId)

def forget (r : PlaygroundSessionRegistry) (workspaceId : String) : PlaygroundSessionRegistry :=
  { r with sessions := r.sessions.filter fun info => info.workspaceId ≠ workspaceId }

def clear (_ : PlaygroundSessionRegistry) : PlaygroundSessionRegistry :=
  empty

section windows
variable {r : PlaygroundSessionRegistry} {now : Int} {ip workspaceId : String}

/-- A look at the window leaves the sessions. -/
@[simp] lemma windowFor_sessions : (r.windowFor now ip).2.sessions = r.sessions := by
  unfold windowFor setWindow
  split
  · split <;> rfl
  · rfl

/-- A look at the window stores it. -/
lemma windowFor_ipWindows :
    (r.windowFor now ip).2.ipWindows =
      Function.update r.ipWindows ip (some (r.windowFor now ip).1) := by
  unfold windowFor setWindow
  split
  · next existing h =>
    split
    · rfl
    · exact (Function.update_eq_self_iff.mpr h.symm).symm
  · rfl

/-- A window counts no more than the one before it. -/
lemma windowFor_executions_le {window : IpWindow} (h : r.ipWindows ip = some window) :
    (r.windowFor now ip).1.executions ≤ window.executions := by
  simp only [windowFor, h]
  split
  · exact Nat.zero_le _
  · exact le_refl _

/-- The check of a session looks at the window only. -/
lemma assertSessionAllowed_snd : (r.assertSessionAllowed now ip).2 = (r.windowFor now ip).2 := by
  simp only [assertSessionAllowed]
  split
  · rfl
  · split <;> rfl

/-- What the check of a session has seen when it passes. -/
lemma assertSessionAllowed_none (h : (r.assertSessionAllowed now ip).1 = none) :
    (r.windowFor now ip).1.sessions < playgroundLimits.sessionsPerIpPerHour ∧
      r.size < playgroundLimits.maxConcurrentSessions := by
  simp only [assertSessionAllowed, size, windowFor_sessions] at h
  split at h
  · cases h
  · split at h
    · cases h
    · refine ⟨by omega, ?_⟩
      rw [size]
      omega

/-- The session of a workspace is one of the sessions. -/
lemma session_of_sessions {r' : PlaygroundSessionRegistry} (h : r'.sessions = r.sessions) :
    r'.session workspaceId = r.session workspaceId := by
  unfold session
  rw [h]

/-- A session that is found is stored for its workspace. -/
lemma session_mem {info : PlaygroundSessionInfo} (h : r.session workspaceId = some info) :
    info ∈ r.sessions ∧ info.workspaceId = workspaceId := by
  refine ⟨List.mem_of_find?_eq_some h, ?_⟩
  simpa using List.find?_some h

/-- A registration counts a session of its address. -/
lemma register_ipWindows {info : PlaygroundSessionInfo} :
    (r.register now info).ipWindows = Function.update r.ipWindows info.ip
      (some { (r.windowFor now info.ip).1 with
        sessions := (r.windowFor now info.ip).1.sessions + 1 }) := by
  have hset : ∀ r : PlaygroundSessionRegistry, (r.setSession info).ipWindows = r.ipWindows := by
    intro r
    unfold setSession modify
    split <;> rfl
  simp only [register, hset, setWindow, windowFor_ipWindows, Function.update_idem]

/-- A new session comes last. -/
lemma setSession_sessions {info : PlaygroundSessionInfo} (h : r.session info.workspaceId = none) :
    (r.setSession info).sessions = r.sessions ++ [info] := by
  have hnew : ¬ r.isPlayground info.workspaceId = true := by
    rw [isPlayground, h]
    exact Bool.false_ne_true
  rw [setSession, if_neg hnew]

/-- A registration adds its session. -/
lemma register_sessions {info : PlaygroundSessionInfo} (h : r.session info.workspaceId = none) :
    (r.register now info).sessions = r.sessions ++ [info] := by
  have hsame : ((r.windowFor now info.ip).2.setWindow info.ip
      { (r.windowFor now info.ip).1 with
        sessions := (r.windowFor now info.ip).1.sessions + 1 }).sessions = r.sessions :=
    windowFor_sessions
  have hnone := (session_of_sessions hsame).trans h
  exact (setSession_sessions hnone).trans (congrArg (· ++ [info]) hsame)

/-- An execution in a session that is admitted: what the limits say, and the registry after the
check. -/
lemma assertExecutionAllowed_none {info : PlaygroundSessionInfo}
    (hsession : r.session workspaceId = some info)
    (h : (r.assertExecutionAllowed now workspaceId).1 = none) :
    info.executions < playgroundLimits.executionsPerSession ∧
      (r.windowFor now info.ip).1.executions < playgroundLimits.executionsPerIpPerHour ∧
        (r.assertExecutionAllowed now workspaceId).2 = (r.windowFor now info.ip).2 := by
  simp only [assertExecutionAllowed, hsession] at h ⊢
  split at h
  · cases h
  · next hunder =>
    rw [if_neg hunder]
    split at h
    · cases h
    · next hunder' =>
      rw [if_neg hunder']
      exact ⟨Nat.lt_of_not_le hunder, Nat.lt_of_not_le hunder', rfl⟩

/-- The registry after a check is the one before it or one that has looked at the window. -/
lemma assertExecutionAllowed_snd {info : PlaygroundSessionInfo}
    (hsession : r.session workspaceId = some info) :
    (r.assertExecutionAllowed now workspaceId).2 = r ∧
        playgroundLimits.executionsPerSession ≤ info.executions ∨
      (r.assertExecutionAllowed now workspaceId).2 = (r.windowFor now info.ip).2 ∧
        info.executions < playgroundLimits.executionsPerSession := by
  simp only [assertExecutionAllowed, hsession]
  split
  · next hover => exact .inl ⟨rfl, hover⟩
  · next hunder =>
    refine .inr ⟨?_, Nat.lt_of_not_le hunder⟩
    split <;> rfl

/-- An execution outside of the playground is not limited. -/
lemma assertExecutionAllowed_regular (h : r.session workspaceId = none) :
    r.assertExecutionAllowed now workspaceId = (none, r) := by
  simp only [assertExecutionAllowed, h]

/-- Nor is it counted. -/
lemma countExecution_regular (h : r.session workspaceId = none) :
    r.countExecution now workspaceId = r := by
  simp only [countExecution, h]

/-- An execution is counted for the address of its session. -/
lemma countExecution_ipWindows {info : PlaygroundSessionInfo}
    (h : r.session workspaceId = some info) :
    (r.countExecution now workspaceId).ipWindows = Function.update r.ipWindows info.ip
      (some { (r.windowFor now info.ip).1 with
        executions := (r.windowFor now info.ip).1.executions + 1 }) := by
  have hmodify : ∀ f, (r.modify workspaceId f).windowFor now info.ip =
      ((r.windowFor now info.ip).1, (r.windowFor now info.ip).2.modify workspaceId f) := by
    intro f
    simp only [windowFor, modify, setWindow]
    split
    · split <;> rfl
    · rfl
  have hwindows : ∀ f, ((r.windowFor now info.ip).2.modify workspaceId f).ipWindows =
      Function.update r.ipWindows info.ip (some (r.windowFor now info.ip).1) :=
    fun _ => windowFor_ipWindows
  simp only [countExecution, h, setWindow, hmodify, hwindows, Function.update_idem]

/-- An execution is counted in its session. -/
lemma countExecution_sessions {info : PlaygroundSessionInfo}
    (h : r.session workspaceId = some info) :
    (r.countExecution now workspaceId).sessions = (r.modify workspaceId fun info =>
      { info with executions := info.executions + 1, lastActiveAt := now }).sessions := by
  simp only [countExecution, h, setWindow, windowFor_sessions]

end windows

end PlaygroundSessionRegistry

/-! ## Calls -/

/-- A call of `createSession` between its check and its registration. -/
structure Creation where
  workspaceId : String
  userId : String
  roleId : String
  ip : String
deriving DecidableEq, Repr

/-- `registry.register({...})` at the end of `createSession`. -/
def Creation.info (creation : Creation) (now : Int) : PlaygroundSessionInfo where
  workspaceId := creation.workspaceId
  userId := creation.userId
  roleId := creation.roleId
  ip := creation.ip
  lastActiveAt := now

/-- A session that was created, and when. -/
structure Created where
  workspaceId : String
  ip : String
  time : Int

/-- An execution that was admitted, the address that created its session, if it belongs to one, and
when it was counted. -/
structure Admitted where
  workspaceId : String
  ip : Option String
  time : Int

/-- The registry, the creations under way, and what happened so far, the latest first. -/
structure Instance where
  registry : PlaygroundSessionRegistry
  pending : List Creation
  created : List Created
  admitted : List Admitted

/-- What happens between two awaits; a reading of the clock is part of it. -/
inductive Happening where
  | begin (creation : Creation) (now : Int)
  | finish (creation : Creation) (now : Int)
  | abandon (creation : Creation)
  | execute (workspaceId : String) (checked counted : Int)
  | decide (workspaceId : String) (now : Int)
  | recycled (workspaceId : String)
  | swept

namespace Instance

/-- The process after its start. -/
def fresh : Instance where
  registry := .empty
  pending := []
  created := []
  admitted := []

/-- The address that created the session of a workspace. -/
def ipOf (c : Instance) (workspaceId : String) : Option String :=
  (c.created.find? fun session => session.workspaceId = workspaceId).map (·.ip)

/-- `createSession` up to its first await. -/
def begin (c : Instance) (creation : Creation) (now : Int) : Instance :=
  let checked := c.registry.assertSessionAllowed now creation.ip
  { c with
    registry := checked.2
    pending := if checked.1.isNone then creation :: c.pending else c.pending }

/-- `createSession` after its last await. -/
def finish (c : Instance) (creation : Creation) (now : Int) : Instance :=
  { c with
    registry := c.registry.register now (creation.info now)
    pending := c.pending.erase creation
    created := ⟨creation.workspaceId, creation.ip, now⟩ :: c.created }

/-- The limits in `executeAgent`. -/
def execute (c : Instance) (workspaceId : String) (checked counted : Int) : Instance :=
  let asserted := c.registry.assertExecutionAllowed checked workspaceId
  if asserted.1.isNone then
    { c with
      registry := asserted.2.countExecution counted workspaceId
      admitted := ⟨workspaceId, c.ipOf workspaceId, counted⟩ :: c.admitted }
  else { c with registry := asserted.2 }

def step (c : Instance) : Happening → Instance
  | .begin creation now => c.begin creation now
  | .finish creation now => c.finish creation now
  | .abandon creation => { c with pending := c.pending.erase creation }
  | .execute workspaceId checked counted => c.execute workspaceId checked counted
  | .decide workspaceId now => { c with registry := c.registry.touch now workspaceId }
  | .recycled workspaceId => { c with registry := c.registry.forget workspaceId }
  | .swept => { c with registry := c.registry.clear }

/-- A workspace that a creation or an execution had to do with. -/
def Known (c : Instance) (workspaceId : String) : Prop :=
  (∃ creation ∈ c.pending, creation.workspaceId = workspaceId) ∨
    (∃ session ∈ c.created, session.workspaceId = workspaceId) ∨
      ∃ execution ∈ c.admitted, execution.workspaceId = workspaceId

/-- A creation takes a new identifier, and only a creation under way can end. -/
def Possible (c : Instance) : Happening → Prop
  | .begin creation _ => ¬ c.Known creation.workspaceId
  | .finish creation _ => creation ∈ c.pending
  | .abandon creation => creation ∈ c.pending
  | _ => True

instance (c : Instance) (workspaceId : String) : Decidable (c.Known workspaceId) :=
  inferInstanceAs (Decidable (_ ∨ _ ∨ _))

instance (c : Instance) : DecidablePred c.Possible
  | .begin _ _ => inferInstanceAs (Decidable (¬ _))
  | .finish _ _ => inferInstanceAs (Decidable (_ ∈ _))
  | .abandon _ => inferInstanceAs (Decidable (_ ∈ _))
  | .execute _ _ _ => instDecidableTrue
  | .decide _ _ => instDecidableTrue
  | .recycled _ => instDecidableTrue
  | .swept => instDecidableTrue

/-! ## The limits -/

/-- When sessions of an address were created. -/
def creations (c : Instance) (ip : String) : List Int :=
  (c.created.filter fun session => session.ip = ip).map (·.time)

/-- When executions in sessions of an address were admitted. -/
def executions (c : Instance) (ip : String) : List Int :=
  (c.admitted.filter fun execution => execution.ip = some ip).map (·.time)

/-- The executions admitted in a workspace. -/
def admissions (c : Instance) (workspaceId : String) : Nat :=
  c.admitted.countP fun execution => execution.workspaceId = workspaceId

structure WithinLimits (c : Instance) : Prop where
  sessions : ∀ ip, Bounded hourMs playgroundLimits.sessionsPerIpPerHour (c.creations ip)
  executions : ∀ ip, Bounded hourMs playgroundLimits.executionsPerIpPerHour (c.executions ip)
  perSession : ∀ session ∈ c.created,
    c.admissions session.workspaceId ≤ playgroundLimits.executionsPerSession
  concurrent : c.registry.size ≤ playgroundLimits.maxConcurrentSessions

/-! ## When nothing is forgotten -/

/-- No creation and no admitted execution of an address is less than an hour old. -/
structure QuietFor (c : Instance) (now : Int) (ip : String) : Prop where
  creations : Quiet hourMs now (c.creations ip)
  executions : Quiet hourMs now (c.executions ip)

/-- `windowFor` forgets nothing recent: where it starts a window the address has been quiet for an
hour, and elsewhere the clock is not behind the start of the window. -/
def Covered (c : Instance) (r : PlaygroundSessionRegistry) (now : Int) (ip : String) : Prop :=
  match r.ipWindows ip with
  | some window =>
    if hourMs ≤ now - window.windowStart then c.QuietFor now ip else window.windowStart ≤ now
  | none => c.QuietFor now ip

/-- The step forgets nothing recent, a creation still passes its check when it registers, and no
execution comes for a session that is not in the registry any more. -/
def Careful (c : Instance) : Happening → Prop
  | .begin creation now => c.Covered c.registry now creation.ip
  | .finish creation now =>
    c.Covered c.registry now creation.ip ∧
      (c.registry.assertSessionAllowed now creation.ip).1 = none
  | .execute workspaceId checked counted =>
    match c.registry.session workspaceId with
    | none =>
      (∀ creation ∈ c.pending, creation.workspaceId ≠ workspaceId) ∧
        ∀ session ∈ c.created, session.workspaceId ≠ workspaceId
    | some info =>
      info.executions < playgroundLimits.executionsPerSession →
        c.Covered c.registry checked info.ip ∧
          c.Covered (c.registry.assertExecutionAllowed checked workspaceId).2 counted info.ip
  | _ => True

instance (c : Instance) (now : Int) (ip : String) : Decidable (c.QuietFor now ip) :=
  decidable_of_iff ((∀ t ∈ c.creations ip, t + hourMs ≤ now) ∧ ∀ t ∈ c.executions ip, t + hourMs ≤ now)
    ⟨fun h => ⟨h.1, h.2⟩, fun h => ⟨h.creations, h.executions⟩⟩

instance (c : Instance) (r : PlaygroundSessionRegistry) (now : Int) (ip : String) :
    Decidable (c.Covered r now ip) :=
  match hwindow : r.ipWindows ip with
  | some window =>
    decidable_of_iff (if hourMs ≤ now - window.windowStart then c.QuietFor now ip
      else window.windowStart ≤ now) (by rw [Covered, hwindow])
  | none => decidable_of_iff (c.QuietFor now ip) (by rw [Covered, hwindow])

instance (c : Instance) : DecidablePred c.Careful
  | .begin creation now => inferInstanceAs (Decidable (c.Covered c.registry now creation.ip))
  | .finish creation now =>
    inferInstanceAs (Decidable (c.Covered c.registry now creation.ip ∧
      (c.registry.assertSessionAllowed now creation.ip).1 = none))
  | .execute workspaceId checked counted =>
    match hsession : c.registry.session workspaceId with
    | none =>
      decidable_of_iff ((∀ creation ∈ c.pending, creation.workspaceId ≠ workspaceId) ∧
        ∀ session ∈ c.created, session.workspaceId ≠ workspaceId) (by rw [Careful, hsession])
    | some info =>
      decidable_of_iff (info.executions < playgroundLimits.executionsPerSession →
        c.Covered c.registry checked info.ip ∧
          c.Covered (c.registry.assertExecutionAllowed checked workspaceId).2 counted info.ip)
        (by rw [Careful, hsession])
  | .abandon _ => instDecidableTrue
  | .decide _ _ => instDecidableTrue
  | .recycled _ => instDecidableTrue
  | .swept => instDecidableTrue

/-- What a window has counted of the creations and the executions of an address. -/
structure Tally (c : Instance) (ip : String) (window : IpWindow) : Prop where
  sessions : Counts hourMs playgroundLimits.sessionsPerIpPerHour (c.creations ip)
    window.windowStart window.sessions
  executions : Counts hourMs playgroundLimits.executionsPerIpPerHour (c.executions ip)
    window.windowStart window.executions

/-- Every window of a registry is a tally. -/
def Tallied (c : Instance) (r : PlaygroundSessionRegistry) : Prop :=
  ∀ ip window, r.ipWindows ip = some window → c.Tally ip window

/-- A session of the registry was created for its address, and its executions are counted. -/
structure Registered (c : Instance) (info : PlaygroundSessionInfo) : Prop where
  created : c.ipOf info.workspaceId = some info.ip
  counted : c.admissions info.workspaceId = info.executions

/-- The invariant: the limits, the tallies, and the identifiers of the creations under way. -/
structure Kept (c : Instance) : Prop where
  limits : c.WithinLimits
  tallied : c.Tallied c.registry
  registered : ∀ info ∈ c.registry.sessions, c.Registered info
  distinct : c.pending.Pairwise fun a b => a.workspaceId ≠ b.workspaceId
  notCreated : ∀ creation ∈ c.pending, ∀ session ∈ c.created,
    session.workspaceId ≠ creation.workspaceId
  notAdmitted : ∀ creation ∈ c.pending, ∀ execution ∈ c.admitted,
    execution.workspaceId ≠ creation.workspaceId

section windows
variable {c : Instance} {r : PlaygroundSessionRegistry} {now : Int} {ip workspaceId : String}

/-- The window that `windowFor` gives is a tally, and the clock is not behind its start. -/
lemma tally_windowFor (hlimits : c.WithinLimits) (htallied : c.Tallied r)
    (hcovered : c.Covered r now ip) :
    c.Tally ip (r.windowFor now ip).1 ∧ (r.windowFor now ip).1.windowStart ≤ now := by
  have hfresh : c.QuietFor now ip → c.Tally ip { windowStart := now } := fun hquiet =>
    ⟨.restart (hlimits.sessions ip) hquiet.creations,
      .restart (hlimits.executions ip) hquiet.executions⟩
  unfold Covered at hcovered
  unfold PlaygroundSessionRegistry.windowFor
  cases hwindow : r.ipWindows ip with
  | none =>
    simp only [hwindow] at hcovered ⊢
    exact ⟨hfresh hcovered, le_refl _⟩
  | some window =>
    simp only [hwindow] at hcovered ⊢
    by_cases hrestart : hourMs ≤ now - window.windowStart
    · rw [if_pos hrestart] at hcovered ⊢
      exact ⟨hfresh hcovered, le_refl _⟩
    · rw [if_neg hrestart] at hcovered ⊢
      exact ⟨htallied ip window hwindow, hcovered⟩

/-- Setting a window that is a tally leaves the tallies. -/
lemma tallied_update {window : IpWindow} {r' : PlaygroundSessionRegistry} {c' : Instance}
    (hwindows : r'.ipWindows = Function.update r.ipWindows ip (some window))
    (hwindow : c'.Tally ip window) (htallied : c.Tallied r)
    (hother : ∀ ip' ≠ ip, c'.creations ip' = c.creations ip' ∧ c'.executions ip' = c.executions ip') :
    c'.Tallied r' := by
  intro ip' window' h
  rw [hwindows] at h
  by_cases hip : ip' = ip
  · subst hip
    rw [Function.update_self] at h
    cases h
    exact hwindow
  · rw [Function.update_of_ne hip] at h
    obtain ⟨hcreations, hexecutions⟩ := hother ip' hip
    obtain ⟨hsessions, hcounted⟩ := htallied ip' window' h
    exact ⟨hcreations ▸ hsessions, hexecutions ▸ hcounted⟩

/-- A look at the window leaves the tallies. -/
lemma tallied_windowFor (hlimits : c.WithinLimits) (htallied : c.Tallied r)
    (hcovered : c.Covered r now ip) : c.Tallied (r.windowFor now ip).2 :=
  tallied_update PlaygroundSessionRegistry.windowFor_ipWindows
    (tally_windowFor hlimits htallied hcovered).1 htallied fun _ _ => ⟨rfl, rfl⟩

end windows

/-! ## Steps -/

section steps
variable {c : Instance} {workspaceId : String} {now : Int} {creation : Creation}

/-- Another registry over the same history. -/
lemma Kept.withRegistry {r : PlaygroundSessionRegistry} (h : c.Kept)
    (hsize : r.size ≤ playgroundLimits.maxConcurrentSessions) (htallied : c.Tallied r)
    (hregistered : ∀ info ∈ r.sessions, c.Registered info) : Kept { c with registry := r } where
  limits := ⟨h.limits.sessions, h.limits.executions, h.limits.perSession, hsize⟩
  tallied ip window hwindow := ⟨(htallied ip window hwindow).1, (htallied ip window hwindow).2⟩
  registered info hinfo := ⟨(hregistered info hinfo).1, (hregistered info hinfo).2⟩
  distinct := h.distinct
  notCreated := h.notCreated
  notAdmitted := h.notAdmitted

/-- Other creations under way. -/
lemma Kept.withPending {pending : List Creation} (h : c.Kept)
    (hdistinct : pending.Pairwise fun a b => a.workspaceId ≠ b.workspaceId)
    (hknown : ∀ creation ∈ pending, creation ∈ c.pending ∨ ¬ c.Known creation.workspaceId) :
    Kept { c with pending := pending } where
  limits := ⟨h.limits.sessions, h.limits.executions, h.limits.perSession, h.limits.concurrent⟩
  tallied ip window hwindow := ⟨(h.tallied ip window hwindow).1, (h.tallied ip window hwindow).2⟩
  registered info hinfo := ⟨(h.registered info hinfo).1, (h.registered info hinfo).2⟩
  distinct := hdistinct
  notCreated creation hmem session hsession := by
    rcases hknown creation hmem with hold | hnew
    · exact h.notCreated creation hold session hsession
    · exact fun heq => hnew (.inr (.inl ⟨session, hsession, heq⟩))
  notAdmitted creation hmem execution hexecution := by
    rcases hknown creation hmem with hold | hnew
    · exact h.notAdmitted creation hold execution hexecution
    · exact fun heq => hnew (.inr (.inr ⟨execution, hexecution, heq⟩))

/-- The check of a creation keeps the invariant. -/
lemma kept_begin (h : c.Kept) (hnew : ¬ c.Known creation.workspaceId)
    (hcovered : c.Covered c.registry now creation.ip) : (c.begin creation now).Kept := by
  have hregistry : Kept { c with
      registry := (c.registry.assertSessionAllowed now creation.ip).2 } := by
    rw [PlaygroundSessionRegistry.assertSessionAllowed_snd]
    apply h.withRegistry
    · rw [PlaygroundSessionRegistry.size, PlaygroundSessionRegistry.windowFor_sessions]
      exact h.limits.concurrent
    · exact tallied_windowFor h.limits h.tallied hcovered
    · rw [PlaygroundSessionRegistry.windowFor_sessions]
      exact h.registered
  apply hregistry.withPending
  · split
    · refine List.pairwise_cons.mpr ⟨?_, h.distinct⟩
      intro other hother heq
      exact hnew (.inl ⟨other, hother, heq.symm⟩)
    · exact h.distinct
  · intro other hother
    split at hother
    · rcases List.mem_cons.mp hother with rfl | hother
      · exact .inr hnew
      · exact .inl hother
    · exact .inl hother

/-- So does a creation that fails. -/
lemma kept_abandon (h : c.Kept) : Kept { c with pending := c.pending.erase creation } := by
  apply h.withPending
  · exact h.distinct.sublist List.erase_sublist
  · exact fun other hother => .inl (List.mem_of_mem_erase hother)

/-- So does a session that is forgotten. -/
lemma kept_recycled (h : c.Kept) : Kept { c with registry := c.registry.forget workspaceId } := by
  apply h.withRegistry
  · exact (List.length_filter_le _ _).trans h.limits.concurrent
  · exact h.tallied
  · exact fun info hinfo => h.registered info (List.mem_of_mem_filter hinfo)

/-- So does the sweep. -/
lemma kept_swept (h : c.Kept) : Kept { c with registry := c.registry.clear } :=
  h.withRegistry (Nat.zero_le _) nofun nofun

/-- So does a decision. -/
lemma kept_decide (h : c.Kept) : Kept { c with registry := c.registry.touch now workspaceId } := by
  apply h.withRegistry
  · exact (List.length_map _).le.trans h.limits.concurrent
  · exact h.tallied
  · intro info hinfo
    obtain ⟨info', hinfo', rfl⟩ := List.mem_map.mp hinfo
    have hregistered := h.registered info' hinfo'
    split
    · exact ⟨hregistered.created, hregistered.counted⟩
    · exact hregistered

/-- An address that created a session is in the list. -/
lemma ipOf_mem {ip : String} (h : c.ipOf workspaceId = some ip) :
    ∃ session ∈ c.created, session.workspaceId = workspaceId := by
  obtain ⟨session, hfind, -⟩ := Option.map_eq_some_iff.mp h
  exact ⟨session, List.mem_of_find?_eq_some hfind, by simpa using List.find?_some hfind⟩

/-- A workspace without a session has no address. -/
lemma ipOf_eq_none (h : ∀ session ∈ c.created, session.workspaceId ≠ workspaceId) :
    c.ipOf workspaceId = none := by
  have hfind : c.created.find? (fun session => session.workspaceId = workspaceId) = none := by
    simpa using h
  rw [ipOf, hfind]
  rfl

/-- A workspace without an execution has no admission. -/
lemma admissions_eq_zero (h : ∀ execution ∈ c.admitted, execution.workspaceId ≠ workspaceId) :
    c.admissions workspaceId = 0 := by
  apply List.countP_eq_zero.mpr
  simpa using h

/-- A registration is a creation of its address. -/
lemma creations_finish (ip : String) :
    (c.finish creation now).creations ip =
      if creation.ip = ip then now :: c.creations ip else c.creations ip := by
  simp only [creations, finish, List.filter_cons, decide_eq_true_eq]
  split <;> rfl

/-- A registration that still passes the check keeps the invariant. -/
lemma kept_finish (h : c.Kept) (hmem : creation ∈ c.pending)
    (hcovered : c.Covered c.registry now creation.ip)
    (hallowed : (c.registry.assertSessionAllowed now creation.ip).1 = none) :
    (c.finish creation now).Kept := by
  obtain ⟨hunder, hroom⟩ := PlaygroundSessionRegistry.assertSessionAllowed_none hallowed
  obtain ⟨htally, hstart⟩ := tally_windowFor h.limits h.tallied hcovered
  have hnew : c.registry.session creation.workspaceId = none := by
    apply List.find?_eq_none.mpr
    intro info hinfo heq
    obtain ⟨session, hsession, hid⟩ := ipOf_mem (h.registered info hinfo).created
    exact h.notCreated creation hmem session hsession (hid.trans (by simpa using heq))
  have hsessions : (c.registry.register now (creation.info now)).sessions =
      c.registry.sessions ++ [creation.info now] :=
    PlaygroundSessionRegistry.register_sessions hnew
  have hadmitted := admissions_eq_zero (h.notAdmitted creation hmem)
  have hothers := (List.pairwise_cons.mp ((List.perm_cons_erase hmem).pairwise h.distinct
    fun hne => hne.symm)).1
  -- the window after the registration
  have hcounted : (c.finish creation now).Tally creation.ip
      { (c.registry.windowFor now creation.ip).1 with
        sessions := (c.registry.windowFor now creation.ip).1.sessions + 1 } := by
    refine ⟨?_, htally.executions⟩
    rw [creations_finish, if_pos rfl]
    exact htally.sessions.succ hunder hstart
  refine ⟨⟨?_, h.limits.executions, ?_, ?_⟩, ?_, ?_, ?_, ?_, ?_⟩
  · intro ip
    by_cases hip : creation.ip = ip
    · subst hip
      exact hcounted.sessions.bounded
    · rw [creations_finish, if_neg hip]
      exact h.limits.sessions ip
  · intro session hsession
    rcases List.mem_cons.mp hsession with rfl | hsession
    · exact hadmitted.le.trans (Nat.zero_le _)
    · exact h.limits.perSession session hsession
  · show (c.registry.register now (creation.info now)).sessions.length ≤ _
    rw [hsessions, List.length_append]
    exact hroom
  · apply tallied_update PlaygroundSessionRegistry.register_ipWindows hcounted h.tallied
    intro ip hip
    have hne : creation.ip ≠ ip := fun heq => hip heq.symm
    refine ⟨?_, rfl⟩
    rw [creations_finish, if_neg hne]
  · intro info hinfo
    have hinfo : info ∈ c.registry.sessions ++ [creation.info now] := hsessions ▸ hinfo
    rcases List.mem_append.mp hinfo with hold | hlast
    · have hregistered := h.registered info hold
      refine ⟨?_, hregistered.counted⟩
      obtain ⟨session, hsession, hid⟩ := ipOf_mem hregistered.created
      have hne : creation.workspaceId ≠ info.workspaceId := fun heq =>
        h.notCreated creation hmem session hsession (hid.trans heq.symm)
      have hcreated := hregistered.created
      simp only [ipOf, finish, List.find?_cons, hne, decide_false] at hcreated ⊢
      exact hcreated
    · rw [List.mem_singleton.mp hlast]
      refine ⟨?_, hadmitted⟩
      simp only [ipOf, finish, Creation.info, List.find?_cons, decide_true, Option.map_some]
  · exact h.distinct.sublist List.erase_sublist
  · intro other hother session hsession
    rcases List.mem_cons.mp hsession with rfl | hsession
    · exact hothers other hother
    · exact h.notCreated other (List.mem_of_mem_erase hother) session hsession
  · exact fun other hother => h.notAdmitted other (List.mem_of_mem_erase hother)

/-- One more admitted execution. -/
def allow (c : Instance) (workspaceId : String) (now : Int) : Instance :=
  { c with admitted := ⟨workspaceId, c.ipOf workspaceId, now⟩ :: c.admitted }

/-- An admission is an execution of the address of its session. -/
lemma executions_allow (ip : String) :
    (c.allow workspaceId now).executions ip =
      if c.ipOf workspaceId = some ip then now :: c.executions ip else c.executions ip := by
  simp only [executions, allow, List.filter_cons, decide_eq_true_eq]
  split <;> rfl

/-- An admission counts for its workspace. -/
lemma admissions_allow (other : String) :
    (c.allow workspaceId now).admissions other =
      c.admissions other + if workspaceId = other then 1 else 0 := by
  simp only [admissions, allow, List.countP_cons, decide_eq_true_eq]

/-- And for no other. -/
lemma admissions_allow_of_ne {other : String} (h : workspaceId ≠ other) :
    (c.allow workspaceId now).admissions other = c.admissions other := by
  rw [admissions_allow, if_neg h, Nat.add_zero]

/-- An execution outside every session. -/
lemma kept_regular (h : c.Kept) (hpending : ∀ creation ∈ c.pending, creation.workspaceId ≠ workspaceId)
    (hcreated : ∀ session ∈ c.created, session.workspaceId ≠ workspaceId) :
    (c.allow workspaceId now).Kept := by
  have hexecutions : ∀ ip, (c.allow workspaceId now).executions ip = c.executions ip := by
    intro ip
    rw [executions_allow, ipOf_eq_none hcreated]
    exact if_neg nofun
  refine ⟨⟨h.limits.sessions, ?_, ?_, h.limits.concurrent⟩, ?_, ?_, h.distinct, h.notCreated, ?_⟩
  · intro ip
    rw [hexecutions]
    exact h.limits.executions ip
  · intro session hsession
    rw [admissions_allow_of_ne fun heq => hcreated session hsession heq.symm]
    exact h.limits.perSession session hsession
  · intro ip window hwindow
    obtain ⟨hsessions, hcounted⟩ := h.tallied ip window hwindow
    exact ⟨hsessions, (hexecutions ip).symm ▸ hcounted⟩
  · intro info hinfo
    have hregistered := h.registered info hinfo
    obtain ⟨session, hsession, hid⟩ := ipOf_mem hregistered.created
    have hne : workspaceId ≠ info.workspaceId := fun heq =>
      hcreated session hsession (hid.trans heq.symm)
    exact ⟨hregistered.created, (admissions_allow_of_ne hne).trans hregistered.counted⟩
  · intro creation hcreation execution hexecution
    rcases List.mem_cons.mp hexecution with rfl | hexecution
    · exact fun heq => hpending creation hcreation heq.symm
    · exact h.notAdmitted creation hcreation execution hexecution

/-- An execution in a session, after the check of its limits. -/
lemma kept_counted {info : PlaygroundSessionInfo} (h : c.Kept)
    (hsession : c.registry.session workspaceId = some info)
    (hunder : info.executions < playgroundLimits.executionsPerSession)
    {window : IpWindow} (htally : c.Tally info.ip window) (hstart : window.windowStart ≤ now)
    (hwindow : window.executions < playgroundLimits.executionsPerIpPerHour)
    {r : PlaygroundSessionRegistry}
    (hwindows : r.ipWindows = Function.update c.registry.ipWindows info.ip
      (some { window with executions := window.executions + 1 }))
    (hsessions : r.sessions = (c.registry.modify workspaceId fun info =>
      { info with executions := info.executions + 1, lastActiveAt := now }).sessions) :
    Kept { c.allow workspaceId now with registry := r } := by
  obtain ⟨hmem, rfl⟩ := PlaygroundSessionRegistry.session_mem hsession
  have hregistered := h.registered info hmem
  have hip := hregistered.created
  have hcounted : (c.allow info.workspaceId now).Tally info.ip
      { window with executions := window.executions + 1 } := by
    refine ⟨htally.sessions, ?_⟩
    rw [executions_allow, if_pos hip]
    exact htally.executions.succ hwindow hstart
  have hother : ∀ ip ≠ info.ip, (c.allow info.workspaceId now).executions ip = c.executions ip := by
    intro ip hne
    rw [executions_allow, hip, if_neg]
    exact fun heq => hne (Option.some.inj heq).symm
  refine ⟨⟨h.limits.sessions, ?_, ?_, ?_⟩, ?_, ?_, h.distinct, h.notCreated, ?_⟩
  · intro ip
    -- the address of the session is charged, every other one is left as it is
    by_cases heq : ip = info.ip
    · subst heq
      exact hcounted.executions.bounded
    · exact (hother ip heq).symm ▸ h.limits.executions ip
  · intro session hcreated
    by_cases heq : info.workspaceId = session.workspaceId
    · show (c.allow info.workspaceId now).admissions session.workspaceId ≤ _
      rw [admissions_allow, if_pos heq, ← heq, hregistered.counted]
      exact hunder
    · exact (admissions_allow_of_ne heq).le.trans (h.limits.perSession session hcreated)
  · show r.sessions.length ≤ _
    rw [hsessions]
    exact (List.length_map _).le.trans h.limits.concurrent
  · have htallied := tallied_update hwindows hcounted h.tallied fun ip hne => ⟨rfl, hother ip hne⟩
    exact fun ip window hip => ⟨(htallied ip window hip).1, (htallied ip window hip).2⟩
  · intro other hmem'
    have hmem' : other ∈ (c.registry.modify info.workspaceId _).sessions := hsessions ▸ hmem'
    obtain ⟨before, hbefore, rfl⟩ := List.mem_map.mp hmem'
    have hold := h.registered before hbefore
    split
    · next hsame =>
      refine ⟨hold.created, ?_⟩
      show (c.allow info.workspaceId now).admissions before.workspaceId = _
      rw [admissions_allow, if_pos hsame.symm, hold.counted]
    · next hdifferent =>
      refine ⟨hold.created, ?_⟩
      exact (admissions_allow_of_ne (Ne.symm hdifferent)).trans hold.counted
  · intro creation hcreation execution hexecution
    rcases List.mem_cons.mp hexecution with rfl | hexecution
    · obtain ⟨session, hcreated, hid⟩ := ipOf_mem hip
      exact fun heq => h.notCreated creation hcreation session hcreated (hid.trans heq)
    · exact h.notAdmitted creation hcreation execution hexecution

/-- An execution keeps the invariant. -/
lemma kept_execute {checked counted : Int} (h : c.Kept)
    (hcareful : c.Careful (.execute workspaceId checked counted)) :
    (c.execute workspaceId checked counted).Kept := by
  cases hsession : c.registry.session workspaceId with
  | none =>
    simp only [Careful, hsession] at hcareful
    have hexecute : c.execute workspaceId checked counted = c.allow workspaceId counted := by
      have hregular : c.registry.countExecution counted workspaceId = c.registry :=
        PlaygroundSessionRegistry.countExecution_regular hsession
      simp only [execute, PlaygroundSessionRegistry.assertExecutionAllowed_regular hsession,
        hregular, Option.isNone_none, if_true, allow]
    rw [hexecute]
    exact kept_regular h hcareful.1 hcareful.2
  | some info =>
    simp only [Careful, hsession] at hcareful
    cases hasserted : (c.registry.assertExecutionAllowed checked workspaceId).1 with
    | some thrown =>
      have hexecute : c.execute workspaceId checked counted = { c with
          registry := (c.registry.assertExecutionAllowed checked workspaceId).2 } := by
        simp only [execute, hasserted, Option.isNone_some, Bool.false_eq_true, if_false]
      rw [hexecute]
      have hsnd : _ = c.registry ∧ _ ∨ _ = (c.registry.windowFor checked info.ip).2 ∧ _ :=
        PlaygroundSessionRegistry.assertExecutionAllowed_snd hsession
      rcases hsnd with ⟨hsame, -⟩ | ⟨hlooked, hunder⟩
      · rw [hsame]
        exact h
      · rw [hlooked]
        apply h.withRegistry
        · rw [PlaygroundSessionRegistry.size, PlaygroundSessionRegistry.windowFor_sessions]
          exact h.limits.concurrent
        · exact tallied_windowFor h.limits h.tallied (hcareful hunder).1
        · rw [PlaygroundSessionRegistry.windowFor_sessions]
          exact h.registered
    | none =>
      obtain ⟨hunder, hfirst, hlooked⟩ :=
        PlaygroundSessionRegistry.assertExecutionAllowed_none hsession hasserted
      obtain ⟨hchecked, hcounted⟩ := hcareful hunder
      rw [hlooked] at hcounted
      have htallied := tallied_windowFor h.limits h.tallied hchecked
      have hlook : Kept { c with registry := (c.registry.windowFor checked info.ip).2 } := by
        apply h.withRegistry _ htallied
        · rw [PlaygroundSessionRegistry.windowFor_sessions]
          exact h.registered
        · rw [PlaygroundSessionRegistry.size, PlaygroundSessionRegistry.windowFor_sessions]
          exact h.limits.concurrent
      have hsame : (c.registry.windowFor checked info.ip).2.session workspaceId = some info := by
        rw [PlaygroundSessionRegistry.session_of_sessions
          PlaygroundSessionRegistry.windowFor_sessions]
        exact hsession
      -- the window of the second reading is that of the first or a new one
      obtain ⟨htally, hstart⟩ := tally_windowFor h.limits htallied hcounted
      have hsecond : ((c.registry.windowFor checked info.ip).2.windowFor counted
          info.ip).1.executions < playgroundLimits.executionsPerIpPerHour := by
        refine lt_of_le_of_lt (PlaygroundSessionRegistry.windowFor_executions_le ?_) hfirst
        rw [PlaygroundSessionRegistry.windowFor_ipWindows, Function.update_self]
      have hkept := kept_counted hlook hsame hunder ⟨htally.1, htally.2⟩ hstart hsecond
        (PlaygroundSessionRegistry.countExecution_ipWindows hsame)
        (PlaygroundSessionRegistry.countExecution_sessions hsame)
      have hexecute : c.execute workspaceId checked counted = { c.allow workspaceId counted with
          registry := (c.registry.windowFor checked info.ip).2.countExecution counted
            workspaceId } := by
        simp only [execute, hasserted, hlooked, Option.isNone_none, if_true, allow]
      rw [hexecute]
      exact hkept

/-- What one step keeps. -/
lemma kept_step {happening : Happening} (h : c.Kept) (hpossible : c.Possible happening)
    (hcareful : c.Careful happening) : (c.step happening).Kept := by
  cases happening with
  | begin creation now => exact kept_begin h hpossible hcareful
  | finish creation now => exact kept_finish h hpossible hcareful.1 hcareful.2
  | abandon creation => exact kept_abandon h
  | execute workspaceId checked counted => exact kept_execute h hcareful
  | decide workspaceId now => exact kept_decide h
  | recycled workspaceId => exact kept_recycled h
  | swept => exact kept_swept h

/-- The invariant holds at the start of the process. -/
lemma kept_fresh : fresh.Kept := by
  refine ⟨⟨fun _ => bounded_nil, fun _ => bounded_nil, nofun, Nat.zero_le _⟩, nofun, nofun, .nil,
    nofun, nofun⟩

end steps

/-- A run from the start of the process, with the conditions of its steps. -/
def Runs (condition : Instance → Happening → Prop) (happenings : List Happening) : Prop :=
  Meets step condition fresh happenings

/-- In a run whose steps forget nothing recent, register only what still passes its check and execute
only in sessions of the registry, the limits hold in every state. -/
theorem limits_hold {happenings : List Happening}
    (h : Runs (fun c happening => c.Possible happening ∧ c.Careful happening) happenings) :
    (happenings.foldl step fresh).WithinLimits := by
  have hkept : (happenings.foldl step fresh).Kept :=
    Meets.inv (fun c happening hc hstep => kept_step hc hstep.1 hstep.2) h kept_fresh
  exact hkept.limits

/-- A creation from the address `ip`. -/
def creationOf (ip workspaceId : String) : Creation where
  workspaceId := workspaceId
  userId := "user of " ++ workspaceId
  roleId := "role of " ++ workspaceId
  ip := ip

/-- Two sessions from one address whose creations overlap, executions in both, the end of one, and
after more than an hour a third session in a window that starts anew. -/
def day : List Happening :=
  [.begin (creationOf "203.0.113.7" "ws-1") 0, .begin (creationOf "203.0.113.7" "ws-2") 40,
    .finish (creationOf "203.0.113.7" "ws-2") 100, .finish (creationOf "203.0.113.7" "ws-1") 120,
    .execute "ws-1" 2000 2001, .execute "ws-2" 2002 2005, .recycled "ws-1",
    .begin (creationOf "203.0.113.7" "ws-3") 3700000,
    .finish (creationOf "203.0.113.7" "ws-3") 3700100, .execute "ws-3" 3700200 3700201]

theorem day_limited : (day.foldl step fresh).WithinLimits := by
  apply limits_hold
  exact ⟨by decide, by decide, by decide, by decide, by decide, by decide, by decide, by decide,
    by decide, by decide, trivial⟩

/-- Four calls of `createSession` that pass the check before the first of them registers. -/
def burst : List Happening :=
  (["ws-1", "ws-2", "ws-3", "ws-4"].map fun id => .begin (creationOf "203.0.113.7" id) 0) ++
    ["ws-1", "ws-2", "ws-3", "ws-4"].map fun id => .finish (creationOf "203.0.113.7" id) 100

/-- Without the condition they do not. -/
theorem burst_exceeds :
    ¬ ∀ happenings, Runs Possible happenings → (happenings.foldl step fresh).WithinLimits := by
  intro h
  have hburst : Runs Possible burst :=
    ⟨by decide, by decide, by decide, by decide, by decide, by decide, by decide, by decide,
      trivial⟩
  have hsessions := (h burst hburst).sessions "203.0.113.7" 0
  exact absurd hsessions (by decide +kernel)

end Instance

end NexusClaw.Community.Playground
