import Mathlib.Data.List.Pairwise
import Mathlib.Data.List.Perm.Basic
import NexusClaw.AgentRuntime.ModelReply

/-!
# Registration of tools

`tool-framework/tool-registry.service.ts`: static tools and release-aware providers are registered
during startup, in the order in which the modules of the application come up. `registerTool` looks
at the static tools only, `registerContextualProvider` at both kinds, so what a sequence of
registrations needs is a relation between an earlier and a later one (`Compatible`), and that
relation is not symmetric. `resolveTool` is the read that a release-aware execution makes.
-/

namespace NexusClaw.ToolRegistration
open AgentRuntime (AgentTool trim distinct)

/-! ## The registry -/

/-- `ResolvedAgentExecutableToolV1`, as far as the registry reads it. -/
structure ResolvedTool where
  toolName : String
deriving DecidableEq

/-- `ContextualAgentToolProvider`, with what it resolves in the context at hand. -/
structure ContextualProvider where
  providerKey : String
  declaredToolNames : Option (List String)
  resolveTool : String → Option ResolvedTool

/-- `[...(provider.declaredToolNames ?? [])]` -/
def ContextualProvider.declaredNames (provider : ContextualProvider) : List String :=
  provider.declaredToolNames.getD []

structure Registry where
  tools : List AgentTool
  contextualProviders : List (String × ContextualProvider)
  contextualRegistrationSealed : Bool

def Registry.empty : Registry :=
  ⟨[], [], false⟩

def Registry.hasTool (r : Registry) (name : String) : Bool :=
  r.tools.any (·.name = name)

def Registry.hasProvider (r : Registry) (key : String) : Bool :=
  r.contextualProviders.any (·.1 = key)

def registerTool (r : Registry) (tool : AgentTool) : Except String Registry :=
  if r.hasTool tool.name then .error ("Tool already registered: " ++ tool.name)
  else .ok { r with tools := r.tools ++ [tool] }

/-- A declared name is empty or has white space around it, or occurs twice. -/
def declarationsInvalid (names : List String) : Bool :=
  names.any (fun name => name = "" || trim name ≠ name) ||
    (distinct names).length ≠ names.length

def registerContextualProvider (r : Registry) (providerKey : String)
    (provider : ContextualProvider) : Except String Registry :=
  let normalizedKey := trim providerKey
  if r.contextualRegistrationSealed then .error "TOOL_CONTEXTUAL_PROVIDER_REGISTRY_SEALED"
  else if normalizedKey = "" ∨ normalizedKey ≠ provider.providerKey then
    .error "TOOL_CONTEXTUAL_PROVIDER_KEY_INVALID"
  else if r.hasProvider normalizedKey then .error "TOOL_CONTEXTUAL_PROVIDER_DUPLICATE"
  else if declarationsInvalid provider.declaredNames then
    .error "TOOL_CONTEXTUAL_PROVIDER_DECLARATIONS_INVALID"
  else
    match provider.declaredNames.find? r.hasTool with
    | some collision =>
      -- the empty name is falsy, but no declaration that got here has it
      if collision = "" then
        .ok { r with
          contextualProviders := r.contextualProviders ++ [(normalizedKey, provider)] }
      else .error ("TOOL_STATIC_CONTEXTUAL_NAME_COLLISION:" ++ collision)
    | none =>
      .ok { r with contextualProviders := r.contextualProviders ++ [(normalizedKey, provider)] }

def onApplicationBootstrap (r : Registry) : Registry :=
  { r with contextualRegistrationSealed := true }

/-- One call of either operation. -/
inductive Registration where
  | tool (tool : AgentTool)
  | provider (providerKey : String) (provider : ContextualProvider)

def register (r : Registry) : Registration → Except String Registry
  | .tool tool => registerTool r tool
  | .provider providerKey provider => registerContextualProvider r providerKey provider

/-- The registrations of a startup, in their order; the first error ends it. -/
def registerAll (r : Registry) : List Registration → Except String Registry
  | [] => .ok r
  | x :: xs =>
    match register r x with
    | .ok next => registerAll next xs
    | .error e => .error e

def Accepted (regs : List Registration) : Prop :=
  ∃ r, registerAll .empty regs = .ok r

/-! ## What the order must not matter for -/

/-- Conditions on one registration: none on a static tool. -/
def Sound : Registration → Prop
  | .tool _ => True
  | .provider providerKey provider =>
    trim providerKey ≠ "" ∧ trim providerKey = provider.providerKey ∧
      declarationsInvalid provider.declaredNames = false

/-- Two static tools have two names, two providers two keys. -/
def Distinct : Registration → Registration → Prop
  | .tool a, .tool b => a.name ≠ b.name
  | .provider a _, .provider b _ => trim a ≠ trim b
  | _, _ => True

/-- No declared name of the one is a name that the other brings. -/
def NoClash : Registration → Registration → Prop
  | .tool _, .tool _ => True
  | .tool a, .provider _ b => a.name ∉ b.declaredNames
  | .provider _ a, .tool b => b.name ∉ a.declaredNames
  | .provider _ a, .provider _ b => ∀ name ∈ a.declaredNames, name ∉ b.declaredNames

/-- What an earlier registration asks of a later one. -/
def Compatible : Registration → Registration → Prop
  | .tool a, .provider _ b => a.name ∉ b.declaredNames
  | x, y => Distinct x y

/-- The registrations that each operation accepts by itself and among its own kind. -/
structure Valid (regs : List Registration) : Prop where
  sound : ∀ x ∈ regs, Sound x
  distinct : regs.Pairwise Distinct

/-- No declared contextual name equals a static tool name or another provider's declared name. -/
def Apart (regs : List Registration) : Prop :=
  regs.Pairwise NoClash

/-- One order is accepted if and only if every order is, and then all the names are apart. -/
structure OrderFree (regs : List Registration) : Prop where
  same : ∀ some_order other, some_order.Perm regs → other.Perm regs →
    (Accepted some_order ↔ Accepted other)
  apart : ∀ some_order, some_order.Perm regs → Accepted some_order → Apart regs

/-! ## What a sequence of registrations needs -/

def toolsOf (regs : List Registration) : List AgentTool :=
  regs.filterMap fun
    | .tool tool => some tool
    | .provider _ _ => none

def providersOf (regs : List Registration) : List (String × ContextualProvider) :=
  regs.filterMap fun
    | .tool _ => none
    | .provider key provider => some (trim key, provider)

/-- The registry after these registrations. -/
def registryOf (regs : List Registration) : Registry :=
  ⟨toolsOf regs, providersOf regs, false⟩

/-- One more tool. -/
lemma registryOf_append_tool (regs : List Registration) (tool : AgentTool) :
    registryOf (regs ++ [.tool tool]) =
      { registryOf regs with tools := (registryOf regs).tools ++ [tool] } := by
  simp [registryOf, toolsOf, providersOf]

/-- One more provider. -/
lemma registryOf_append_provider (regs : List Registration) (key : String)
    (provider : ContextualProvider) :
    registryOf (regs ++ [.provider key provider]) =
      { registryOf regs with
        contextualProviders := (registryOf regs).contextualProviders ++ [(trim key, provider)] } := by
  simp [registryOf, toolsOf, providersOf]

/-- The tools that were registered. -/
lemma mem_toolsOf {regs : List Registration} {tool : AgentTool} :
    tool ∈ toolsOf regs ↔ .tool tool ∈ regs := by
  simp only [toolsOf, List.mem_filterMap]
  constructor
  · rintro ⟨_ | _, mem, same⟩
    · cases same
      exact mem
    · cases same
  · intro mem
    exact ⟨_, mem, rfl⟩

/-- The providers that were registered. -/
lemma mem_providersOf {regs : List Registration} {key : String} {provider : ContextualProvider} :
    (key, provider) ∈ providersOf regs ↔
      ∃ providerKey, .provider providerKey provider ∈ regs ∧ trim providerKey = key := by
  simp only [providersOf, List.mem_filterMap]
  constructor
  · rintro ⟨_ | ⟨providerKey, _⟩, mem, same⟩
    · cases same
    · cases same
      exact ⟨providerKey, mem, rfl⟩
  · rintro ⟨providerKey, mem, rfl⟩
    exact ⟨_, mem, rfl⟩

/-- A tool is there if it was registered. -/
lemma hasTool_registryOf (regs : List Registration) (name : String) :
    (registryOf regs).hasTool name = true ↔ ∃ tool, .tool tool ∈ regs ∧ tool.name = name := by
  simp [Registry.hasTool, registryOf, mem_toolsOf]

/-- A provider is there if it was registered. -/
lemma hasProvider_registryOf (regs : List Registration) (key : String) :
    (registryOf regs).hasProvider key = true ↔
      ∃ providerKey provider, .provider providerKey provider ∈ regs ∧ trim providerKey = key := by
  simp only [Registry.hasProvider, registryOf, List.any_eq_true, decide_eq_true_eq, Prod.exists]
  constructor
  · rintro ⟨_, provider, mem, rfl⟩
    obtain ⟨providerKey, mem, same⟩ := mem_providersOf.mp mem
    exact ⟨providerKey, provider, mem, same⟩
  · rintro ⟨providerKey, provider, mem, same⟩
    exact ⟨key, provider, mem_providersOf.mpr ⟨providerKey, mem, same⟩, rfl⟩

/-- What an operation asks of a registration on top of others. -/
def Admits (done : List Registration) (x : Registration) : Prop :=
  Sound x ∧ ∀ y ∈ done, Compatible y x

/-- When a tool is registered. -/
lemma registerTool_iff (done : List Registration) (tool : AgentTool) (r : Registry) :
    registerTool (registryOf done) tool = .ok r ↔
      Admits done (.tool tool) ∧ r = registryOf (done ++ [.tool tool]) := by
  have admits : Admits done (.tool tool) ↔ (registryOf done).hasTool tool.name = false := by
    rw [← Bool.not_eq_true, hasTool_registryOf]
    constructor
    · rintro ⟨_, all⟩ ⟨other, mem, same⟩
      exact all _ mem same
    · intro fresh
      refine ⟨trivial, ?_⟩
      rintro (other | ⟨key, provider⟩) mem
      · exact fun same => fresh ⟨other, mem, same⟩
      · trivial
  rw [admits, registryOf_append_tool, registerTool]
  cases (registryOf done).hasTool tool.name with
  | true => simp
  | false => simp [eq_comm]

/-- A declaration that passed its check has no empty name. -/
lemma ne_empty_of_declared {names : List String} (valid : declarationsInvalid names = false)
    {name : String} (mem : name ∈ names) : name ≠ "" := by
  simp only [declarationsInvalid, Bool.or_eq_false_iff, List.any_eq_false] at valid
  intro same
  exact valid.1 name mem (by simp [same])

/-- When a provider is registered. -/
lemma registerContextualProvider_iff (done : List Registration) (key : String)
    (provider : ContextualProvider) (r : Registry) :
    registerContextualProvider (registryOf done) key provider = .ok r ↔
      Admits done (.provider key provider) ∧ r = registryOf (done ++ [.provider key provider]) := by
  have fresh_iff : (registryOf done).hasProvider (trim key) = false ↔
      ∀ y ∈ done, ∀ key' provider', y = .provider key' provider' → trim key' ≠ trim key := by
    rw [← Bool.not_eq_true, hasProvider_registryOf]
    constructor
    · rintro fresh _ mem key' provider' rfl same
      exact fresh ⟨key', provider', mem, same⟩
    · rintro fresh ⟨key', provider', mem, same⟩
      exact fresh _ mem key' provider' rfl same
  have clash_iff : provider.declaredNames.find? (registryOf done).hasTool = none ↔
      ∀ y ∈ done, ∀ tool, y = .tool tool → tool.name ∉ provider.declaredNames := by
    rw [List.find?_eq_none]
    constructor
    · rintro none_there _ mem tool rfl declared
      exact none_there _ declared ((hasTool_registryOf done _).mpr ⟨tool, mem, rfl⟩)
    · intro apart name declared has
      obtain ⟨tool, mem, rfl⟩ := (hasTool_registryOf done name).mp has
      exact apart _ mem tool rfl declared
  -- a provider is admitted by its own declaration, a fresh key and no clash of names
  have admits : Admits done (.provider key provider) ↔
      (trim key ≠ "" ∧ trim key = provider.providerKey ∧
        declarationsInvalid provider.declaredNames = false) ∧
      (registryOf done).hasProvider (trim key) = false ∧
      provider.declaredNames.find? (registryOf done).hasTool = none := by
    rw [fresh_iff, clash_iff]
    constructor
    · rintro ⟨sound, all⟩
      refine ⟨sound, ?_, ?_⟩
      · rintro _ mem key' provider' rfl
        exact all _ mem
      · rintro _ mem tool rfl
        exact all _ mem
    · rintro ⟨sound, keys, names⟩
      refine ⟨sound, ?_⟩
      rintro (tool | ⟨key', provider'⟩) mem
      · exact names _ mem tool rfl
      · exact keys _ mem key' provider' rfl
  rw [admits, registryOf_append_provider]
  have unsealed : (registryOf done).contextualRegistrationSealed = false := rfl
  simp only [registerContextualProvider, unsealed, Bool.false_eq_true, if_false]
  split_ifs with bad_key duplicate invalid
  · constructor
    · intro impossible
      cases impossible
    · rintro ⟨⟨⟨nonempty, same, _⟩, _⟩, _⟩
      exact (not_or.mpr ⟨nonempty, not_not.mpr same⟩) bad_key
  · simp [duplicate]
  · simp [invalid]
  · rw [not_or, not_not] at bad_key
    rw [Bool.not_eq_true] at duplicate invalid
    cases clash : provider.declaredNames.find? (registryOf done).hasTool with
    | none =>
      have admitted : (trim key ≠ "" ∧ trim key = provider.providerKey ∧
          declarationsInvalid provider.declaredNames = false) ∧
          (registryOf done).hasProvider (trim key) = false ∧ (none : Option String) = none :=
        ⟨⟨bad_key.1, bad_key.2, invalid⟩, duplicate, rfl⟩
      constructor
      · intro same
        exact ⟨admitted, (Except.ok.inj same).symm⟩
      · rintro ⟨_, rfl⟩
        rfl
    | some name =>
      have named := ne_empty_of_declared invalid (List.mem_of_find?_eq_some clash)
      simp [named]

/-- When a registration succeeds. -/
lemma register_iff (done : List Registration) (x : Registration) (r : Registry) :
    register (registryOf done) x = .ok r ↔ Admits done x ∧ r = registryOf (done ++ [x]) := by
  cases x with
  | tool tool => exact registerTool_iff done tool r
  | provider key provider => exact registerContextualProvider_iff done key provider r

/-- A run on top of others is accepted if and only if each registration is admitted by the ones
before it. -/
lemma registerAll_iff (done regs : List Registration) (r : Registry) :
    registerAll (registryOf done) regs = .ok r ↔
      ((∀ x ∈ regs, Admits done x) ∧ regs.Pairwise Compatible) ∧ r = registryOf (done ++ regs) := by
  -- induction on the registrations: each is checked against the ones before it
  induction regs generalizing done with
  | nil => simp [registerAll, eq_comm]
  | cons x xs ih =>
    have step : registerAll (registryOf done) (x :: xs) = .ok r ↔
        Admits done x ∧ registerAll (registryOf (done ++ [x])) xs = .ok r := by
      cases register_eq : register (registryOf done) x with
      | error e =>
        simp only [registerAll, register_eq]
        constructor
        · intro impossible
          cases impossible
        · rintro ⟨admits, _⟩
          rw [(register_iff done x _).mpr ⟨admits, rfl⟩] at register_eq
          cases register_eq
      | ok next =>
        obtain ⟨admits, rfl⟩ := (register_iff done x next).mp register_eq
        simp only [registerAll, register_eq, admits, true_and]
    have admits_append : ∀ y, Admits (done ++ [x]) y ↔ Admits done y ∧ Compatible x y := by
      intro y
      simp only [Admits, List.mem_append, List.mem_singleton]
      constructor
      · rintro ⟨sound, all⟩
        exact ⟨⟨sound, fun z mem => all z (.inl mem)⟩, all x (.inr rfl)⟩
      · rintro ⟨⟨sound, all⟩, compatible⟩
        refine ⟨sound, ?_⟩
        rintro z (mem | rfl)
        · exact all z mem
        · exact compatible
    rw [step, ih (done ++ [x])]
    simp only [admits_append, List.forall_mem_cons, List.pairwise_cons, List.append_assoc,
      List.singleton_append, forall_and]
    tauto

/-- A startup is accepted if and only if each registration is sound and compatible with every
earlier one. -/
lemma accepted_iff (regs : List Registration) :
    Accepted regs ↔ (∀ x ∈ regs, Sound x) ∧ regs.Pairwise Compatible := by
  have run := registerAll_iff [] regs
  simp only [Admits, List.not_mem_nil, false_imp_iff, implies_true, and_true] at run
  constructor
  · rintro ⟨r, accepted⟩
    exact ((run r).mp accepted).1
  · intro admitted
    exact ⟨_, (run _).mpr ⟨admitted, rfl⟩⟩

/-! ## Order -/

/-- Two registrations are distinct either way. -/
lemma Distinct.symm : ∀ {x y : Registration}, Distinct x y → Distinct y x
  | .tool _, .tool _, h => Ne.symm h
  | .provider _ _, .provider _ _, h => Ne.symm h
  | .tool _, .provider _ _, _ => trivial
  | .provider _ _, .tool _, _ => trivial

/-- Two registrations do not clash either way. -/
lemma NoClash.symm : ∀ {x y : Registration}, NoClash x y → NoClash y x
  | .tool _, .tool _, _ => trivial
  | .tool _, .provider _ _, h => h
  | .provider _ _, .tool _, h => h
  | .provider _ _, .provider _ _, h => fun name mem mem' => h name mem' mem

instance : Std.Symm NoClash :=
  ⟨fun _ _ => NoClash.symm⟩

/-- Compatible registrations are distinct. -/
lemma Compatible.distinct : ∀ {x y : Registration}, Compatible x y → Distinct x y
  | .tool _, .tool _, h => h
  | .provider _ _, .provider _ _, h => h
  | .provider _ _, .tool _, _ => trivial
  | .tool _, .provider _ _, _ => trivial

/-- Distinct registrations that do not clash are compatible. -/
lemma compatible_of_apart : ∀ {x y : Registration}, Distinct x y → NoClash x y → Compatible x y
  | .tool _, .tool _, distinct, _ => distinct
  | .provider _ _, .provider _ _, distinct, _ => distinct
  | .provider _ _, .tool _, _, _ => trivial
  | .tool _, .provider _ _, _, apart => apart

/-- Valid registrations are so in any order. -/
lemma Valid.perm {regs other : List Registration} (perm : regs.Perm other) (valid : Valid regs) :
    Valid other :=
  ⟨fun x mem => valid.sound x (perm.mem_iff.mpr mem),
    (perm.pairwise_iff Distinct.symm).mp valid.distinct⟩

/-- So are registrations that do not clash. -/
lemma Apart.perm {regs other : List Registration} (perm : regs.Perm other) (apart : Apart regs) :
    Apart other :=
  (perm.pairwise_iff NoClash.symm).mp apart

/-- Accepted registrations are valid. -/
lemma valid_of_accepted {regs : List Registration} (accepted : Accepted regs) : Valid regs := by
  obtain ⟨sound, compatible⟩ := (accepted_iff regs).mp accepted
  exact ⟨sound, compatible.imp Compatible.distinct⟩

/-- Valid registrations that do not clash are accepted. -/
lemma accepted_of_apart {regs : List Registration} (valid : Valid regs) (apart : Apart regs) :
    Accepted regs := by
  apply (accepted_iff regs).mpr
  refine ⟨valid.sound, ?_⟩
  exact valid.distinct.imp₂ (fun _ _ => compatible_of_apart) apart

def Registration.isProvider : Registration → Bool
  | .provider _ _ => true
  | .tool _ => false

/-- The order that no collision check sees: every provider comes before every static tool. -/
def providersFirst (regs : List Registration) : List Registration :=
  regs.filter Registration.isProvider ++ regs.filter (!·.isProvider)

/-- The providers in front is another order. -/
lemma providersFirst_perm (regs : List Registration) : (providersFirst regs).Perm regs :=
  List.filter_append_perm Registration.isProvider regs

/-- Valid registrations are accepted with the providers in front. -/
lemma accepted_providersFirst {regs : List Registration} (valid : Valid regs) :
    Accepted (providersFirst regs) := by
  have valid' := valid.perm (providersFirst_perm regs).symm
  apply (accepted_iff _).mpr
  refine ⟨valid'.sound, ?_⟩
  obtain ⟨providers, tools, _⟩ := List.pairwise_append.mp valid'.distinct
  refine List.pairwise_append.mpr ⟨?_, ?_, ?_⟩
  · refine providers.imp_of_mem ?_
    rintro (_ | _) y mem _ distinct
    · simp [Registration.isProvider] at mem
    · cases y <;> exact distinct
  · refine tools.imp_of_mem ?_
    rintro x (_ | _) _ mem distinct
    · cases x <;> exact distinct
    · simp [Registration.isProvider] at mem
  · rintro (_ | _) mem (_ | _) mem'
    · simp [Registration.isProvider] at mem
    · simp [Registration.isProvider] at mem
    · trivial
    · simp [Registration.isProvider] at mem'

/-- The order of registrations does not matter exactly when, on registrations that are valid by
themselves, the names are apart. -/
theorem registrations_orderFree_iff (regs : List Registration) :
    OrderFree regs ↔ (Valid regs → Apart regs) := by
  constructor
  · intro free valid
    exact free.apart _ (providersFirst_perm regs) (accepted_providersFirst valid)
  · intro apart
    have every : ∀ {some_order other : List Registration}, some_order.Perm regs →
        other.Perm regs → Accepted some_order → Accepted other := by
      intro some_order other perm perm' accepted
      have valid := (valid_of_accepted accepted).perm perm
      exact accepted_of_apart (valid.perm perm'.symm) ((apart valid).perm perm'.symm)
    constructor
    · intro some_order other perm perm'
      exact ⟨every perm perm', every perm' perm⟩
    · intro some_order perm accepted
      exact apart ((valid_of_accepted accepted).perm perm)

/-! ### A declared name that a static tool has -/

def leadTool : AgentTool where
  name := "crm.lead.get"
  category := "crm"
  inputSchema := .null
  objectApiName := none
  operation := none
  riskLevel := "L0"
  preparesApproval := false

def leadProvider : ContextualProvider where
  providerKey := "serverless-action"
  declaredToolNames := some ["crm.lead.get"]
  resolveTool := fun _ => none

/-- The key of the actions has no white space around it. -/
lemma trim_actionKey : trim "serverless-action" = "serverless-action" := by
  decide

/-- The provider before the tool is accepted, with one name on both sides. -/
theorem provider_first_shadows :
    ¬ ∀ regs : List Registration, OrderFree regs := by
  intro free
  have accepted : Accepted [.provider "serverless-action" leadProvider, .tool leadTool] := by
    apply (accepted_iff _).mpr
    refine ⟨?_, ?_⟩
    · rintro x (_ | ⟨_, _ | ⟨_, ⟨⟩⟩⟩)
      · exact ⟨by rw [trim_actionKey]; decide, trim_actionKey, by decide⟩
      · trivial
    · simp [Compatible, Distinct]
  have apart := (free _).apart _ (List.Perm.refl _) accepted
  exact (List.pairwise_cons.mp apart).1 (.tool leadTool) (List.mem_singleton.mpr rfl)
    (List.mem_singleton.mpr rfl)

/-! ## After startup -/

/-- A sealed registry takes static tools only, and stays sealed. -/
lemma register_sealed {r next : Registry} {x : Registration}
    (is_sealed : r.contextualRegistrationSealed = true) (accepted : register r x = .ok next) :
    next.contextualRegistrationSealed = true ∧
      next.contextualProviders = r.contextualProviders := by
  cases x with
  | tool tool =>
    simp only [register, registerTool] at accepted
    split_ifs at accepted
    cases accepted
    exact ⟨is_sealed, rfl⟩
  | provider key provider =>
    simp only [register, registerContextualProvider, is_sealed, if_true] at accepted
    cases accepted

/-- The providers of a startup are the providers of the whole run. -/
lemma registerAll_sealed {r last : Registry} {regs : List Registration}
    (accepted : registerAll (onApplicationBootstrap r) regs = .ok last) :
    last.contextualProviders = r.contextualProviders := by
  suffices run : ∀ {from_here : Registry}, from_here.contextualRegistrationSealed = true →
      registerAll from_here regs = .ok last →
        last.contextualProviders = from_here.contextualProviders from
    @run (onApplicationBootstrap r) rfl accepted
  clear accepted
  induction regs with
  | nil =>
    intro from_here _ accepted
    cases accepted
    rfl
  | cons x xs ih =>
    intro from_here is_sealed accepted
    cases register_eq : register from_here x with
    | error e =>
      simp only [registerAll, register_eq] at accepted
      cases accepted
    | ok next =>
      simp only [registerAll, register_eq] at accepted
      obtain ⟨still_sealed, same⟩ := register_sealed is_sealed register_eq
      exact (ih still_sealed accepted).trans same

/-! ## Resolution in a release -/

inductive Resolution where
  | static (tool : AgentTool)
  | contextual (tool : ResolvedTool)

/-- `resolveTool` in a governed context. -/
def resolveTool (r : Registry) (name : String) : Except String (Option Resolution) :=
  let staticTool := r.tools.find? (·.name = name)
  let found := r.contextualProviders.filterMap fun provider => provider.2.resolveTool name
  if found.length > 1 then .error ("TOOL_CONTEXTUAL_NAME_COLLISION:" ++ name)
  else if staticTool.isSome ∧ found.length > 0 then
    .error ("TOOL_STATIC_CONTEXTUAL_NAME_COLLISION:" ++ name)
  else .ok ((staticTool.map .static).or (found.head?.map .contextual))

/-- The provider resolves the names that it declares, and no others. -/
def ResolvesDeclared (provider : ContextualProvider) : Prop :=
  ∀ name, (provider.resolveTool name).isSome → name ∈ provider.declaredNames

/-- What a release resolves is never the name of a static tool. -/
lemma resolveTool_never_shadows {r : Registry} {name : String} {tool : ResolvedTool}
    (resolved : resolveTool r name = .ok (some (.contextual tool))) : r.hasTool name = false := by
  unfold resolveTool at resolved
  dsimp only at resolved
  split_ifs at resolved with many both
  cases static_eq : r.tools.find? (·.name = name) with
  | none =>
    rw [List.find?_eq_none] at static_eq
    simpa [Registry.hasTool] using static_eq
  | some static =>
    rw [static_eq] at resolved
    cases resolved

/-- With names apart, no resolution of declared names runs into a collision. -/
lemma resolveTool_ok {regs : List Registration} (apart : Apart regs)
    (honest : ∀ key provider, .provider key provider ∈ regs → ResolvesDeclared provider)
    (name : String) : ∃ resolution, resolveTool (registryOf regs) name = .ok resolution := by
  have declared : ∀ {key : String} {provider : ContextualProvider},
      .provider key provider ∈ regs → (provider.resolveTool name).isSome →
        name ∈ provider.declaredNames :=
    fun mem some_there => honest _ _ mem name some_there
  have at_most_one :
      ((providersOf regs).filterMap fun provider => provider.2.resolveTool name).length ≤ 1 := by
    induction regs with
    | nil => exact Nat.zero_le 1
    | cons x regs ih =>
      obtain ⟨clear, apart'⟩ := List.pairwise_cons.mp apart
      have rest := ih apart' (fun key provider mem => honest key provider (.tail _ mem))
        (fun mem => declared (.tail _ mem))
      cases x with
      | tool _ => exact rest
      | provider key provider =>
        change ((((trim key, provider) :: providersOf regs).filterMap _).length ≤ 1)
        cases found : provider.resolveTool name with
        | none => simpa [found] using rest
        | some resolved =>
          -- another provider that resolves the name would declare it as well
          have mine := declared (.head _) (by rw [found]; rfl)
          have others : (providersOf regs).filterMap
              (fun provider => provider.2.resolveTool name) = [] := by
            rw [List.filterMap_eq_nil_iff]
            rintro ⟨key', other⟩ mem
            obtain ⟨providerKey, mem, _⟩ := mem_providersOf.mp mem
            cases found' : other.resolveTool name with
            | none => rfl
            | some _ =>
              have theirs := declared (.tail _ mem) (by rw [found']; rfl)
              exact absurd theirs (clear _ mem name mine)
          simp [found, others]
  have never_both : ¬ (((registryOf regs).tools.find? (·.name = name)).isSome ∧
      ((providersOf regs).filterMap fun provider => provider.2.resolveTool name).length > 0) := by
    rintro ⟨has, found⟩
    obtain ⟨tool, mem, named⟩ := List.find?_isSome.mp has
    obtain ⟨resolved, resolved_mem⟩ := List.exists_mem_of_length_pos found
    obtain ⟨⟨key, provider⟩, provider_mem, resolves⟩ := List.mem_filterMap.mp resolved_mem
    obtain ⟨providerKey, provider_mem, _⟩ := mem_providersOf.mp provider_mem
    have theirs := declared provider_mem (by rw [resolves]; rfl)
    have named : tool.name = name := by simpa using named
    subst named
    have tool_mem := mem_toolsOf.mp mem
    exact apart.forall tool_mem provider_mem (by simp) theirs
  have providers_eq : (registryOf regs).contextualProviders = providersOf regs := rfl
  unfold resolveTool
  dsimp only
  rw [providers_eq, if_neg (Nat.not_lt.mpr at_most_one), if_neg never_both]
  exact ⟨_, rfl⟩

end NexusClaw.ToolRegistration
