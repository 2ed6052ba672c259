import Mathlib.Data.List.Basic
import Mathlib.Data.List.Induction
import Mathlib.Data.Nat.Cast.Order.Ring
import NexusClaw.Double

/-!
# Governor limits

`governor/src/governor-limit.service.ts`: counters of the resources that an execution context uses,
against limits that its options may override. A context is the store of the asynchronous code that
`runInContext` started; here it is known by its place in the list of contexts, and a run is any
interleaving of contexts that open and of calls from inside them or from outside any.
-/

namespace NexusClaw.Governor

inductive GovernorResource where
  | soqlQueries
  | queryRows
  | dmlStatements
  | dmlRows
  | cpuTime
  | heapSize
  | callStackDepth
  | futureCalls
  | callouts
  | calloutTime
deriving DecidableEq

/-- The keys of `GovernorLimitConfig`. -/
inductive LimitKey where
  | maxSoqlQueries
  | maxQueryRows
  | maxDmlStatements
  | maxDmlRows
  | maxCpuTime
  | maxHeapSize
  | maxCallStackDepth
  | maxFutureCalls
  | maxCallouts
  | maxCalloutTime
deriving DecidableEq

/-- `RESOURCE_TO_LIMIT_KEY` -/
def limitKeyOf : GovernorResource → LimitKey
  | .soqlQueries => .maxSoqlQueries
  | .queryRows => .maxQueryRows
  | .dmlStatements => .maxDmlStatements
  | .dmlRows => .maxDmlRows
  | .cpuTime => .maxCpuTime
  | .heapSize => .maxHeapSize
  | .callStackDepth => .maxCallStackDepth
  | .futureCalls => .maxFutureCalls
  | .callouts => .maxCallouts
  | .calloutTime => .maxCalloutTime

/-- `SYNC_GOVERNOR_LIMITS` -/
def syncGovernorLimits : LimitKey → Nat
  | .maxSoqlQueries => 100
  | .maxQueryRows => 50000
  | .maxDmlStatements => 150
  | .maxDmlRows => 10000
  | .maxCpuTime => 10000
  | .maxHeapSize => 6291456
  | .maxCallStackDepth => 16
  | .maxFutureCalls => 50
  | .maxCallouts => 100
  | .maxCalloutTime => 120000

/-- `ASYNC_GOVERNOR_LIMITS` -/
def asyncGovernorLimits : LimitKey → Nat
  | .maxSoqlQueries => 200
  | .maxQueryRows => 50000
  | .maxDmlStatements => 150
  | .maxDmlRows => 10000
  | .maxCpuTime => 60000
  | .maxHeapSize => 12582912
  | .maxCallStackDepth => 16
  | .maxFutureCalls => 50
  | .maxCallouts => 100
  | .maxCalloutTime => 120000

inductive Mode where
  | sync
  | async
deriving DecidableEq

/-- An override: a number or an explicit `undefined`. -/
abbrev Limit : Type :=
  Option Double

structure GovernorContextOptions where
  mode : Mode
  limits : LimitKey → Option Limit := fun _ => none

structure ExecutionContext where
  counters : GovernorResource → Option Double
  limits : LimitKey → Limit

/-- `{ ...baseLimits, ...options.limits }` -/
def mergedLimits (options : GovernorContextOptions) (key : LimitKey) : Limit :=
  let baseLimits := if options.mode = .async then asyncGovernorLimits else syncGovernorLimits
  match options.limits key with
  | some override => override
  | none => some (.finite (baseLimits key))

/-- The context that `runInContext` makes. -/
def newContext (options : GovernorContextOptions) : ExecutionContext where
  counters := fun _ => none
  limits := mergedLimits options

/-- `getUsage` -/
def ExecutionContext.usage (ctx : ExecutionContext) (resource : GovernorResource) : Double :=
  Double.orZero (ctx.counters resource)

/-- `getLimit` -/
def ExecutionContext.limit (ctx : ExecutionContext) (resource : GovernorResource) : Limit :=
  ctx.limits (limitKeyOf resource)

/-- `value > limit`; a comparison with `undefined` is false. -/
def exceeds (value : Double) : Limit → Bool
  | none => false
  | some limit => value.gt limit

/-! ## Runs -/

/-- A context opens, or `checkAndIncrement` is called by code whose store is `store`. -/
inductive Event where
  | runInContext (options : GovernorContextOptions)
  | checkAndIncrement (store : Option Nat) (resource : GovernorResource) (amount : Option Double)

inductive Outcome where
  | opened
  | accepted
  /-- `GovernorLimitException` -/
  | limitExceeded (resource : GovernorResource) (currentValue : Double) (limitValue : Limit)
  /-- `GovernorLimitContextMissingException` -/
  | contextMissing (resource : GovernorResource)

/-- The contexts in the order in which they were opened. -/
abbrev Contexts : Type :=
  List ExecutionContext

/-- The amount of a call, by default 1. -/
def amountOf (amount : Option Double) : Double :=
  amount.getD (.finite 1)

def ExecutionContext.count (ctx : ExecutionContext) (resource : GovernorResource)
    (value : Double) : ExecutionContext :=
  { ctx with counters := fun r => if r = resource then some value else ctx.counters r }

def step (r : Rounding) (contexts : Contexts) : Event → Contexts × Outcome
  | .runInContext options => (contexts ++ [newContext options], .opened)
  | .checkAndIncrement store resource amount =>
    match store.bind fun id => contexts[id]? with
    | none => (contexts, .contextMissing resource)
    | some ctx =>
      let value := r.add (ctx.usage resource) (amountOf amount)
      if exceeds value (ctx.limit resource) then
        (contexts, .limitExceeded resource value (ctx.limit resource))
      else (contexts.modify (store.getD 0) fun ctx => ctx.count resource value, .accepted)

def run (r : Rounding) (contexts : Contexts) (events : List Event) : Contexts :=
  events.foldl (fun contexts e => (step r contexts e).1) contexts

/-- The amount that an event adds to a counter. -/
def admits (r : Rounding) (contexts : Contexts) (id : Nat) (resource : GovernorResource)
    (e : Event) : List Double :=
  match e, (step r contexts e).2 with
  | .checkAndIncrement store resource' amount, .accepted =>
    if store = some id ∧ resource' = resource then [amountOf amount] else []
  | _, _ => []

/-- The amounts that a run adds to a counter, in order. -/
def admitted (r : Rounding) (id : Nat) (resource : GovernorResource) :
    Contexts → List Event → List Double
  | _, [] => []
  | contexts, e :: events =>
    admits r contexts id resource e ++ admitted r id resource (step r contexts e).1 events

/-- The sum of amounts. -/
def sum (r : Rounding) (amounts : List Double) : Double :=
  amounts.foldl r.add (.finite 0)

/-! ## What the governor keeps -/

/-- What holds after `events`, and at the next event. -/
structure Keeps (r : Rounding) (events : List Event) (e : Event) : Prop where
  sum : ∀ (id : Nat) ctx, (run r [] events)[id]? = some ctx → ∀ resource,
    ctx.usage resource = sum r (admitted r id resource [] events)
  limit : ∀ (id : Nat) ctx, (run r [] events)[id]? = some ctx → ∀ resource,
    ∃ limit, ctx.limit resource = some limit ∧ (ctx.usage resource).le limit = true
  grows : ∀ (id : Nat) ctx ctx', (run r [] events)[id]? = some ctx →
    (step r (run r [] events) e).1[id]? = some ctx' →
      ∀ resource, (ctx.usage resource).le (ctx'.usage resource) = true
  rejected : (∀ resource value limit,
      (step r (run r [] events) e).2 = .limitExceeded resource value limit →
        (step r (run r [] events) e).1 = run r [] events) ∧
    ∀ resource, (step r (run r [] events) e).2 = .contextMissing resource →
      (step r (run r [] events) e).1 = run r [] events
  others : ∀ store resource amount, e = .checkAndIncrement store resource amount →
    ∀ (id : Nat) ctx, (run r [] events)[id]? = some ctx → ∃ ctx',
      (step r (run r [] events) e).1[id]? = some ctx' ∧
        ∀ resource', (store ≠ some id ∨ resource' ≠ resource) →
          ctx'.usage resource' = ctx.usage resource'

/-- A number that is at least zero. -/
def AtLeastZero (n : Double) : Prop :=
  (Double.finite 0).le n = true

/-- The amounts and the limits that an event names are numbers from zero on. -/
def Event.Sound : Event → Prop
  | .runInContext options => ∀ key override, options.limits key = some override →
      ∃ limit, override = some limit ∧ AtLeastZero limit
  | .checkAndIncrement _ _ amount => AtLeastZero (amountOf amount)

/-- A context whose counters are sums of the amounts let in, below limits that are numbers. -/
structure ExecutionContext.Good (r : Rounding) (ctx : ExecutionContext) : Prop where
  positive : ∀ resource, r.Positive (ctx.usage resource)
  limit : ∀ resource, ∃ limit, ctx.limit resource = some limit ∧
    (ctx.usage resource).le limit = true

section keeps
variable {r : Rounding} {contexts : Contexts}

/-- The usage after a count. -/
lemma usage_count {ctx : ExecutionContext} {resource resource' : GovernorResource}
    {value : Double} :
    (ctx.count resource value).usage resource' =
      if resource' = resource then Double.orZero (some value) else ctx.usage resource' := by
  unfold ExecutionContext.count ExecutionContext.usage
  dsimp only
  split <;> rfl

/-- A sum reads back as itself. -/
lemma orZero_positive {n : Double} (h : r.Positive n) : Double.orZero (some n) = n := by
  cases n with
  | nan => cases h.nonneg
  | infinite negative => rfl
  | finite q =>
    by_cases hq : q = 0
    · subst hq
      rfl
    · simp [Double.orZero, Double.truthy, hq]

/-- A new context is good. -/
lemma newContext_good {options : GovernorContextOptions}
    (h : (Event.runInContext options).Sound) : (newContext options).Good r := by
  refine ⟨fun _ => r.positive_zero, fun resource => ?_⟩
  show ∃ limit, mergedLimits options (limitKeyOf resource) = some limit ∧ _
  unfold mergedLimits
  cases hkey : options.limits (limitKeyOf resource) with
  | none => exact ⟨_, rfl, Double.finite_le.2 (Nat.cast_nonneg _)⟩
  | some override =>
    obtain ⟨limit, rfl, hlimit⟩ := h _ _ hkey
    exact ⟨limit, rfl, hlimit⟩

/-- What an event does: a context opens, nothing changes, or one counter of one context takes a sum
that its limit allows. -/
inductive StepCases (r : Rounding) (contexts : Contexts) : Event → Contexts × Outcome → Prop where
  | opened (options) : StepCases r contexts (.runInContext options)
      (contexts ++ [newContext options], .opened)
  | contextMissing (store resource amount) :
      StepCases r contexts (.checkAndIncrement store resource amount)
        (contexts, .contextMissing resource)
  | limitExceeded (store resource amount value limit) :
      StepCases r contexts (.checkAndIncrement store resource amount)
        (contexts, .limitExceeded resource value limit)
  | accepted (id resource amount ctx) (hctx : contexts[id]? = some ctx)
      (hvalue : exceeds (r.add (ctx.usage resource) (amountOf amount)) (ctx.limit resource) =
        false) :
      StepCases r contexts (.checkAndIncrement (some id) resource amount)
        (contexts.set id (ctx.count resource (r.add (ctx.usage resource) (amountOf amount))),
          .accepted)

/-- What an event does to the contexts. -/
lemma step_cases (e : Event) : StepCases r contexts e (step r contexts e) := by
  cases e with
  | runInContext options => exact .opened options
  | checkAndIncrement store resource amount =>
    cases store with
    | none => exact .contextMissing none resource amount
    | some id =>
      unfold step
      dsimp only [Option.bind_some, Option.getD_some]
      cases hctx : contexts[id]? with
      | none => exact .contextMissing (some id) resource amount
      | some ctx =>
        dsimp only
        split
        · exact .limitExceeded (some id) resource amount _ _
        · next hvalue =>
          have hset : contexts.modify id (fun ctx' => ctx'.count resource
              (r.add (ctx.usage resource) (amountOf amount))) =
                contexts.set id (ctx.count resource
                  (r.add (ctx.usage resource) (amountOf amount))) := by
            rw [List.modify_eq_set_getElem?, hctx]
            rfl
          rw [hset]
          exact .accepted id resource amount ctx hctx (by simpa using hvalue)

/-- A counter that takes a sum its limit allows is still good. -/
lemma ExecutionContext.Good.count {ctx : ExecutionContext} (h : ctx.Good r)
    {resource : GovernorResource} {amount : Double} (ha : AtLeastZero amount)
    (hvalue : exceeds (r.add (ctx.usage resource) amount) (ctx.limit resource) = false) :
    (ctx.count resource (r.add (ctx.usage resource) amount)).Good r := by
  obtain ⟨hpositive, _⟩ := (h.positive resource).add ha
  refine ⟨fun resource' => ?_, fun resource' => ?_⟩
  · rw [usage_count]
    split
    · rw [orZero_positive hpositive]
      exact hpositive
    · exact h.positive resource'
  · obtain ⟨limit, hlimit, hle⟩ := h.limit resource'
    refine ⟨limit, hlimit, ?_⟩
    rw [usage_count]
    split
    · next heq =>
      subst heq
      rw [orZero_positive hpositive]
      rw [hlimit] at hvalue
      exact Double.le_of_not_gt (Double.ne_nan_of_le hpositive.nonneg).2
        (Double.ne_nan_of_le hle).2 hvalue
    · exact hle

/-! ## Runs of sound events -/

/-- What is known of the contexts after a run: they are good, and each counter is the sum of the
amounts admitted to it; there are none for a context that is yet to open. -/
structure Ledger (r : Rounding) (events : List Event) : Prop where
  good : ∀ (id : Nat) ctx, (run r [] events)[id]? = some ctx → ctx.Good r
  sum : ∀ (id : Nat) ctx, (run r [] events)[id]? = some ctx → ∀ resource,
    ctx.usage resource = Governor.sum r (admitted r id resource [] events)
  closed : ∀ id : Nat, (run r [] events)[id]? = none → ∀ resource,
    admitted r id resource [] events = []

/-- The events are run one after the other. -/
lemma run_append (events : List Event) (e : Event) :
    run r contexts (events ++ [e]) = (step r (run r contexts events) e).1 := by
  unfold run
  rw [List.foldl_append]
  rfl

/-- What was admitted after one more event. -/
lemma admitted_append (events : List Event) (e : Event) (id : Nat) (resource : GovernorResource) :
    admitted r id resource contexts (events ++ [e]) =
      admitted r id resource contexts events ++ admits r (run r contexts events) id resource e := by
  induction events generalizing contexts with
  | nil => simp [admitted, run]
  | cons e' events ih =>
    rw [List.cons_append, admitted, ih, admitted, List.append_assoc]
    rfl

/-- The sum of two lists of amounts. -/
lemma sum_append (amounts amounts' : List Double) :
    Governor.sum r (amounts ++ amounts') = amounts'.foldl r.add (Governor.sum r amounts) := by
  unfold Governor.sum
  rw [List.foldl_append]

/-- An event that changes nothing keeps the ledger. -/
lemma Ledger.same {events : List Event} (h : Ledger r events) {e : Event}
    (hrun : run r [] (events ++ [e]) = run r [] events)
    (hnone : ∀ id resource, admits r (run r [] events) id resource e = []) :
    Ledger r (events ++ [e]) := by
  have hadmitted (id : Nat) (resource : GovernorResource) :
      admitted r id resource [] (events ++ [e]) = admitted r id resource [] events := by
    rw [admitted_append, hnone, List.append_nil]
  constructor
  · rw [hrun]
    exact h.good
  · intro id ctx hctx resource
    rw [hrun] at hctx
    rw [hadmitted]
    exact h.sum id ctx hctx resource
  · intro id hid resource
    rw [hrun] at hid
    rw [hadmitted]
    exact h.closed id hid resource

/-- One event keeps the ledger. -/
lemma Ledger.step {events : List Event} (h : Ledger r events) {e : Event} (he : e.Sound) :
    Ledger r (events ++ [e]) := by
  have hcases := @step_cases r (run r [] events) e
  have hadmits (id : Nat) (resource : GovernorResource) :
      admitted r id resource [] (events ++ [e]) =
        admitted r id resource [] events ++ admits r (run r [] events) id resource e :=
    admitted_append events e id resource
  generalize hstep : Governor.step r (run r [] events) e = out at hcases
  have hrun : run r [] (events ++ [e]) = out.1 := by rw [run_append, hstep]
  -- one case for each outcome of an event; only an accepted one is counted
  cases hcases with
  | opened options =>
    have hnone (id : Nat) (resource : GovernorResource) :
        admits r (run r [] events) id resource (.runInContext options) = [] := rfl
    refine ⟨fun id ctx hctx => ?_, fun id ctx hctx resource => ?_, fun id hid resource => ?_⟩
    · rw [hrun, List.getElem?_append] at hctx
      split at hctx
      · exact h.good id ctx hctx
      · obtain rfl := List.mem_singleton.1 (List.mem_of_getElem? hctx)
        exact newContext_good he
    · rw [hadmits, hnone, List.append_nil]
      rw [hrun, List.getElem?_append] at hctx
      split at hctx
      · exact h.sum id ctx hctx resource
      · next hout =>
        obtain rfl := List.mem_singleton.1 (List.mem_of_getElem? hctx)
        rw [h.closed id (List.getElem?_eq_none (Nat.le_of_not_lt hout))]
        rfl
    · rw [hadmits, hnone, List.append_nil]
      refine h.closed id ?_ resource
      rw [hrun] at hid
      rw [List.getElem?_eq_none_iff] at hid ⊢
      rw [List.length_append] at hid
      omega
  | contextMissing store resource amount =>
    refine h.same hrun fun id resource' => ?_
    unfold admits
    rw [hstep]
  | limitExceeded store resource amount value limit =>
    refine h.same hrun fun id resource' => ?_
    unfold admits
    rw [hstep]
  | accepted id resource amount ctx hctx hvalue =>
    have hgood := h.good id ctx hctx
    have hin : id < (run r [] events).length := (List.getElem?_eq_some_iff.1 hctx).1
    have hsome (id' : Nat) (resource' : GovernorResource) :
        admits r (run r [] events) id' resource' (.checkAndIncrement (some id) resource amount) =
          if id = id' ∧ resource = resource' then [amountOf amount] else [] := by
      unfold admits
      rw [hstep]
      simp
    refine ⟨fun id' ctx' hctx' => ?_, fun id' ctx' hctx' resource' => ?_, fun id' hid resource' => ?_⟩
    · rw [hrun, List.getElem?_set] at hctx'
      split at hctx'
      · obtain rfl := Option.some.inj hctx'
        exact hgood.count he hvalue
      · exact h.good id' ctx' hctx'
    · rw [hadmits, hsome]
      rw [hrun, List.getElem?_set] at hctx'
      split at hctx'
      · next heq =>
        subst heq
        obtain rfl := Option.some.inj hctx'
        rw [usage_count]
        by_cases hresource : resource' = resource
        · subst hresource
          rw [if_pos rfl, if_pos ⟨rfl, rfl⟩, sum_append, ← h.sum id ctx hctx resource']
          exact orZero_positive ((hgood.positive resource').add he).1
        · rw [if_neg hresource, if_neg fun hand => hresource hand.2.symm, List.append_nil]
          exact h.sum id ctx hctx resource'
      · next hne =>
        rw [if_neg fun hand => hne hand.1, List.append_nil]
        exact h.sum id' ctx' hctx' resource'
    · rw [hadmits, hsome]
      rw [hrun, List.getElem?_eq_none_iff, List.length_set] at hid
      have hne : id ≠ id' := by omega
      rw [if_neg fun hand => hne hand.1, List.append_nil]
      exact h.closed id' (List.getElem?_eq_none hid) resource'

/-- The ledger before the first event. -/
lemma ledger_nil : Ledger r [] where
  good := fun id ctx hctx => by cases hctx
  sum := fun id ctx hctx => by cases hctx
  closed := fun _ _ _ => rfl

/-- Every run of sound events has a ledger. -/
lemma ledger_of_sound {events : List Event} (h : ∀ e ∈ events, e.Sound) : Ledger r events := by
  induction events using List.reverseRecOn with
  | nil => exact ledger_nil
  | append_singleton events e ih =>
    exact (ih fun e' he' => h e' (List.mem_append_left _ he')).step
      (h e (List.mem_append_right _ (List.mem_singleton_self e)))

/-- The contexts that are open stay open, and only the counter that a call names may change. -/
lemma step_others {e : Event} {id : Nat} {ctx : ExecutionContext} (hctx : contexts[id]? = some ctx) :
    ∃ ctx', (step r contexts e).1[id]? = some ctx' ∧
      ∀ resource, (∀ amount, e ≠ .checkAndIncrement (some id) resource amount) →
        ctx'.usage resource = ctx.usage resource := by
  have hin : id < contexts.length := (List.getElem?_eq_some_iff.1 hctx).1
  have hcases := @step_cases r contexts e
  generalize step r contexts e = out at hcases ⊢
  cases hcases with
  | opened options =>
    exact ⟨ctx, by rw [List.getElem?_append_left hin, hctx], fun _ _ => rfl⟩
  | contextMissing => exact ⟨ctx, hctx, fun _ _ => rfl⟩
  | limitExceeded => exact ⟨ctx, hctx, fun _ _ => rfl⟩
  | accepted id' resource amount ctx₁ hctx₁ hvalue =>
    by_cases heq : id' = id
    · subst heq
      obtain rfl := Option.some.inj (hctx₁.symm.trans hctx)
      refine ⟨_, List.getElem?_set_self hin, fun resource' hother => ?_⟩
      rw [usage_count, if_neg]
      rintro rfl
      exact hother amount rfl
    · exact ⟨ctx, by rw [List.getElem?_set_ne heq, hctx], fun _ _ => rfl⟩

/-- In every run in which the amounts and the limit overrides are numbers from zero on, the counters
are the sums of what was let in, below their limits, and only grow. -/
theorem governor_keeps (r : Rounding) (events : List Event) (e : Event)
    (h : ∀ e' ∈ events ++ [e], e'.Sound) : Keeps r events e := by
  have hbefore := ledger_of_sound (r := r) fun e' he' => h e' (List.mem_append_left _ he')
  have he : e.Sound := h e (List.mem_append_right _ (List.mem_singleton_self e))
  have hafter := hbefore.step he
  refine ⟨hbefore.sum, fun id ctx hctx => (hbefore.good id ctx hctx).limit, ?_, ?_, ?_⟩
  · intro id ctx ctx' hctx hctx' resource
    have hrefl : (ctx.usage resource).le (ctx.usage resource) = true := by
      obtain ⟨x, y, hx, hy, _⟩ := Double.le_iff.1 ((hbefore.good id ctx hctx).positive resource).nonneg
      exact Double.le_iff.2 ⟨y, y, hy, hy, le_refl y⟩
    have hcases := @step_cases r (run r [] events) e
    obtain ⟨ctx₁, hctx₁, hothers⟩ := @step_others r _ e id ctx hctx
    obtain rfl := Option.some.inj (hctx'.symm.trans hctx₁)
    generalize step r (run r [] events) e = out at hcases hctx'
    -- only an event that is accepted moves a counter, and only its own
    cases hcases with
    | opened options => exact (hothers resource nofun) ▸ hrefl
    | contextMissing =>
      obtain rfl := Option.some.inj (hctx.symm.trans hctx')
      exact hrefl
    | limitExceeded =>
      obtain rfl := Option.some.inj (hctx.symm.trans hctx')
      exact hrefl
    | accepted id' resource' amount ctx₂ hctx₂ hvalue =>
      by_cases hsame : id' = id ∧ resource = resource'
      · obtain ⟨rfl, rfl⟩ := hsame
        obtain rfl := Option.some.inj (hctx₂.symm.trans hctx)
        have hin := (List.getElem?_eq_some_iff.1 hctx).1
        rw [List.getElem?_set_self hin] at hctx'
        obtain rfl := Option.some.inj hctx'
        obtain ⟨hpositive, hup⟩ := ((hbefore.good _ _ hctx).positive resource).add he
        rw [usage_count, if_pos rfl, orZero_positive hpositive]
        exact hup
      · rw [hothers resource fun amount' heq => hsame ?_]
        · exact hrefl
        · cases heq
          exact ⟨rfl, rfl⟩
  · have hcases := @step_cases r (run r [] events) e
    generalize step r (run r [] events) e = out at hcases
    constructor
    · intro resource value limit hout
      cases hcases <;> first | rfl | cases hout
    · intro resource hout
      cases hcases <;> first | rfl | cases hout
  · rintro store resource amount rfl id ctx hctx
    obtain ⟨ctx', hctx', hothers⟩ := @step_others r _ (.checkAndIncrement store resource amount) id ctx hctx
    refine ⟨ctx', hctx', fun resource' hne => hothers resource' fun amount' heq => ?_⟩
    cases heq
    rcases hne with hstore | hresource
    · exact hstore rfl
    · exact hresource rfl

end keeps

/-- Two nested contexts, with a limit of five queries in the inner one. -/
def nestedRun : List Event :=
  [.runInContext { mode := .sync },
    .checkAndIncrement (some 0) .soqlQueries none,
    .runInContext
      { mode := .async
        limits := fun key => if key = .maxSoqlQueries then some (some (.finite 5)) else none },
    .checkAndIncrement (some 1) .soqlQueries (some (.finite 5))]

/-- The next query of the inner context is rejected, one of the outer context is not. -/
theorem nestedRun_keeps : Keeps .exact nestedRun (.checkAndIncrement (some 1) .soqlQueries none) := by
  refine governor_keeps .exact nestedRun _ fun e he => ?_
  have hone : AtLeastZero (amountOf none) := by
    show Double.le (.finite 0) (.finite 1) = true
    decide +kernel
  simp only [nestedRun, List.cons_append, List.nil_append, List.mem_cons, List.not_mem_nil,
    or_false] at he
  rcases he with rfl | rfl | rfl | rfl | rfl
  · exact nofun
  · exact hone
  · intro key override hkey
    dsimp only at hkey
    split at hkey
    · obtain rfl := Option.some.inj hkey
      exact ⟨_, rfl, by show Double.le (.finite 0) (.finite 5) = true; decide +kernel⟩
    · cases hkey
  · show Double.le (.finite 0) (.finite 5) = true
    decide +kernel
  · exact hone

/-- A negative amount takes back what was counted. -/
theorem negative_amount_uncounts : ¬ Keeps .exact
    [.runInContext { mode := .sync }, .checkAndIncrement (some 0) .callouts (some (.finite 10))]
    (.checkAndIncrement (some 0) .callouts (some (.finite (-5)))) := by
  intro h
  have hbefore : ((run .exact [] [.runInContext { mode := .sync },
      .checkAndIncrement (some 0) .callouts (some (.finite 10))])[0]?).map
        (fun ctx => ctx.usage .callouts) = some (.finite 10) := by
    decide +kernel
  have hafter : ((step .exact (run .exact [] [.runInContext { mode := .sync },
      .checkAndIncrement (some 0) .callouts (some (.finite 10))])
      (.checkAndIncrement (some 0) .callouts (some (.finite (-5))))).1[0]?).map
        (fun ctx => ctx.usage .callouts) = some (.finite 5) := by
    decide +kernel
  obtain ⟨ctx, hctx, husage⟩ := Option.map_eq_some_iff.1 hbefore
  obtain ⟨ctx', hctx', husage'⟩ := Option.map_eq_some_iff.1 hafter
  have hgrows := h.grows 0 ctx ctx' hctx hctx' .callouts
  rw [husage, husage'] at hgrows
  exact absurd hgrows (by decide +kernel)

end NexusClaw.Governor
