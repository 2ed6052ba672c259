import Mathlib.Data.List.Flatten
import Mathlib.Data.Set.Basic
import Mathlib.Logic.Relation
import NexusClaw.AgentRuntime.ModelReply

/-!
# Tools of a release

`executor/release-bound-agent-runtime.ts`: the tools that the definition of a release and the topics
selected for a run allow. Three formulas choose among the tools that the selected topics bind and
those that the permissions name, and which of them applies depends on what is empty; `chosen` is that
choice on sets. `Narrows` lists the ways to narrow a configuration, and the main result says after
which of them, in any number and order, no tool is gained.
-/

namespace NexusClaw.AgentRuntime

/-! ## The choice of a formula -/

section chosen
variable {α : Type} {B B' P P' X X' : Set α}

/-- What is allowed by bound elements `B`, permitted elements `P` and blocked elements `X`: an empty
set of the first two restricts nothing. -/
def chosen (B P X : Set α) : Set α :=
  {x | x ∉ X ∧ (B = ∅ → x ∈ P) ∧ (B.Nonempty → x ∈ B ∧ (P.Nonempty → x ∈ P))}

/-- What is chosen where something is bound. -/
lemma chosen_of_bound (hB : B.Nonempty) :
    chosen B P X = {x | x ∉ X ∧ x ∈ B ∧ (P.Nonempty → x ∈ P)} := by
  ext x
  constructor
  · intro ⟨hx, _, hbound⟩
    exact ⟨hx, hbound hB⟩
  · intro ⟨hx, hbound⟩
    exact ⟨hx, fun h => absurd h hB.ne_empty, fun _ => hbound⟩

/-- What is chosen where nothing is. -/
lemma chosen_empty : chosen ∅ P X = P \ X := by
  ext x
  constructor
  · intro ⟨hx, hpermitted, _⟩
    exact ⟨hpermitted rfl, hx⟩
  · intro ⟨hpermitted, hx⟩
    exact ⟨hx, fun _ => hpermitted, fun h => absurd h Set.not_nonempty_empty⟩

/-- Shrinking the bound and the permitted elements gains something exactly where a set becomes empty
that had kept it out. -/
theorem chosen_subset_iff (hB : B' ⊆ B) (hP : P' ⊆ P) (hX : X ⊆ X') :
    chosen B' P' X' ⊆ chosen B P X ↔
      (B' = ∅ → B.Nonempty → P' \ X' ⊆ B) ∧ (P' = ∅ → P.Nonempty → B' \ X' ⊆ P) := by
  constructor
  · intro h
    refine ⟨fun hempty hne x hx => ?_, fun hempty hne x hx => ?_⟩
    · rw [hempty, chosen_empty, chosen_of_bound hne] at h
      exact (h hx).2.1
    · have hne' : B'.Nonempty := ⟨x, hx.1⟩
      rw [chosen_of_bound hne', chosen_of_bound (hne'.mono hB)] at h
      have hin : x ∈ {x | x ∉ X' ∧ x ∈ B' ∧ (P'.Nonempty → x ∈ P')} :=
        ⟨hx.2, hx.1, fun hp => absurd hempty hp.ne_empty⟩
      exact (h hin).2.2 hne
  · intro ⟨hbound, hpermitted⟩ x hx
    have hfree : x ∉ X := fun h => hx.1 (hX h)
    rcases B'.eq_empty_or_nonempty with hB' | hB'
    · have hxP : x ∈ P' := hx.2.1 hB'
      exact ⟨hfree, fun _ => hP hxP, fun hne => ⟨hbound hB' hne ⟨hxP, hx.1⟩, fun _ => hP hxP⟩⟩
    · obtain ⟨hxB, hxP⟩ := hx.2.2 hB'
      refine ⟨hfree, fun h => absurd (hB hxB) (h ▸ Set.notMem_empty x),
        fun _ => ⟨hB hxB, fun hne => ?_⟩⟩
      rcases P'.eq_empty_or_nonempty with hP' | hP'
      · exact hpermitted hP' hne ⟨hxB, hx.1⟩
      · exact hP (hxP hP')

end chosen

/-! ## Definitions -/

/-- `TopicDefinition`; an absent list is empty. -/
structure TopicDefinition where
  id : String
  toolBindingIds : List String
deriving DecidableEq, Repr

structure ToolBinding where
  id : String
  toolName : Option String
  topicId : String
deriving DecidableEq, Repr

/-- `PermissionConfigDefinition` -/
structure PermissionConfig where
  allowedTools : List (Option String)
  blockedTools : List (Option String)
deriving DecidableEq, Repr

structure AgentDefinition where
  topics : List TopicDefinition
  toolBindings : List ToolBinding
  permissionConfig : PermissionConfig
deriving DecidableEq, Repr

/-- `bindings.get(id)`: of two bindings with one id the later one. -/
def AgentDefinition.binding? (definition : AgentDefinition) (id : String) : Option ToolBinding :=
  definition.toolBindings.reverse.find? (·.id = id)

/-- `!selected || selected.has(id)`; an empty selection selects every topic. -/
def selects (selectedTopicIds : Option (List String)) (id : String) : Bool :=
  match selectedTopicIds with
  | some (first :: rest) => (first :: rest).contains id
  | _ => true

/-- The binding that a topic names, if it is one of the topic's and names a tool. -/
def AgentDefinition.bindingOf (definition : AgentDefinition) (topicId bindingId : String) :
    Option ToolBinding :=
  (definition.binding? bindingId).filter fun binding =>
    binding.topicId = topicId && (nonEmpty (binding.toolName.map trim)).isSome

/-- What the two loops of `resolveReachableBindings` run through. -/
def AgentDefinition.reachable (definition : AgentDefinition)
    (selectedTopicIds : Option (List String)) : List (String × String) :=
  (definition.topics.filter fun topic => selects selectedTopicIds topic.id).flatMap fun topic =>
    topic.toolBindingIds.map fun bindingId => (topic.id, bindingId)

/-- The body of the loops; `seen` is the ids of the bindings resolved so far. -/
def resolveBindings (definition : AgentDefinition) :
    List (String × String) → List ToolBinding → Except String (List ToolBinding)
  | [], resolved => .ok resolved
  | (topicId, bindingId) :: rest, resolved =>
    match definition.bindingOf topicId bindingId with
    | none =>
      .error ("AGENT_VERSION_TOPIC_TOOL_BINDING_INVALID:" ++ topicId ++ ":" ++ bindingId)
    | some binding =>
      if resolved.any (·.id = binding.id) then
        .error ("AGENT_VERSION_TOPIC_TOOL_BINDING_DUPLICATE:" ++ binding.id)
      else resolveBindings definition rest (resolved ++ [binding])

def resolveReachableBindings (definition : AgentDefinition)
    (selectedTopicIds : Option (List String)) : Except String (List ToolBinding) :=
  resolveBindings definition (definition.reachable selectedTopicIds) []

/-! ## Allowed tools -/

/-- `.map((value) => value?.trim()).filter(Boolean)` -/
def trimmedEntries (values : List (Option String)) : List String :=
  values.filterMap fun value => nonEmpty (value.map trim)

/-- The UTF-16 code units of a text, by which `sort` compares. -/
def utf16 (text : String) : List Nat :=
  text.toList.flatMap fun c =>
    if c.toNat < 0x10000 then [c.toNat]
    else [0xd800 + (c.toNat - 0x10000) / 0x400, 0xdc00 + (c.toNat - 0x10000) % 0x400]

/-- The order of two texts by their units. -/
def unitsOrdered : List Nat → List Nat → Bool
  | [], _ => true
  | _ :: _, [] => false
  | x :: xs, y :: ys => x < y || (x = y && unitsOrdered xs ys)

def sortTexts (texts : List String) : List String :=
  texts.insertionSort fun a b => unitsOrdered (utf16 a) (utf16 b)

def releaseBoundAllowedTools (definition : AgentDefinition)
    (selectedTopicIds : Option (List String)) : Except String (List String) := do
  let bindings ← resolveReachableBindings definition selectedTopicIds
  let bound := distinct (bindings.filterMap fun binding => binding.toolName.map trim)
  let permitted := distinct (trimmedEntries definition.permissionConfig.allowedTools)
  let blocked := distinct (trimmedEntries definition.permissionConfig.blockedTools)
  let selected :=
    if 0 < bound.length ∧ 0 < permitted.length then bound.filter (permitted.contains ·)
    else if 0 < bound.length then bound
    else permitted
  .ok (sortTexts ((distinct selected).filter fun toolName => !blocked.contains toolName))

/-- The distinct names are the names. -/
@[simp] lemma mem_distinct {x : String} {xs : List String} : x ∈ distinct xs ↔ x ∈ xs := by
  induction xs with
  | nil => rfl
  | cons y ys ih =>
    rw [distinct, List.mem_cons, List.mem_cons, List.mem_filter, ih]
    by_cases h : x = y
    · simp [h]
    · simp [h]

/-! ## Resolving -/

section resolve
variable {definition : AgentDefinition}

/-- A binding that is found has its id. -/
lemma bindingOf_id {topicId bindingId : String} {binding : ToolBinding}
    (h : definition.bindingOf topicId bindingId = some binding) : binding.id = bindingId := by
  obtain ⟨hfound, _⟩ := Option.filter_eq_some_iff.1 h
  have hid := List.find?_some hfound
  exact of_decide_eq_true hid

/-- The loops end with the bindings in the order of the topics, if each is one of its topic's and
none is named twice. -/
lemma resolveBindings_eq_ok {pairs : List (String × String)} {resolved result : List ToolBinding} :
    resolveBindings definition pairs resolved = .ok result ↔
      (∀ p ∈ pairs, (definition.bindingOf p.1 p.2).isSome = true) ∧ (pairs.map Prod.snd).Nodup ∧
        (∀ p ∈ pairs, ∀ binding ∈ resolved, binding.id ≠ p.2) ∧
        result = resolved ++ pairs.filterMap fun p => definition.bindingOf p.1 p.2 := by
  -- induction on the pairs: each has to be bound, and no identifier may come twice
  induction pairs generalizing resolved with
  | nil =>
    constructor
    · intro h
      cases h
      simp
    · intro ⟨_, _, _, h⟩
      rw [h]
      simp [resolveBindings]
  | cons p pairs ih =>
    obtain ⟨topicId, bindingId⟩ := p
    unfold resolveBindings
    cases hbinding : definition.bindingOf topicId bindingId with
    | none =>
      constructor
      · intro h
        cases h
      · intro ⟨h, _⟩
        have hsome := h _ (List.mem_cons_self ..)
        rw [hbinding] at hsome
        cases hsome
    | some binding =>
      have hid := bindingOf_id hbinding
      dsimp only
      by_cases hseen : resolved.any (·.id = binding.id) = true
      · rw [if_pos hseen]
        obtain ⟨other, hother, heq⟩ := List.any_eq_true.1 hseen
        constructor
        · intro h
          cases h
        · intro ⟨_, _, h, _⟩
          have hne := h _ (List.mem_cons_self ..) other hother
          exact absurd ((of_decide_eq_true heq).trans hid) hne
      · rw [if_neg hseen, ih]
        have hnew : ∀ other ∈ resolved, other.id ≠ bindingId := by
          intro other hother heq
          exact hseen (List.any_eq_true.2 ⟨other, hother, decide_eq_true (heq.trans hid.symm)⟩)
        simp only [List.mem_cons, List.mem_append, List.not_mem_nil, or_false, forall_eq_or_imp,
          List.map_cons, List.nodup_cons, List.mem_map, hbinding, Option.isSome_some, true_and,
          List.filterMap_cons, List.append_assoc, List.singleton_append]
        constructor
        · intro ⟨hall, hnodup, hfresh, hresult⟩
          refine ⟨hall, ⟨?_, hnodup⟩, ⟨hnew, fun q hq other hother => ?_⟩, hresult⟩
          · intro ⟨q, hq, heq⟩
            exact hfresh q hq binding (.inr rfl) (hid.trans heq.symm)
          · exact hfresh q hq other (.inl hother)
        · intro ⟨hall, ⟨hnot, hnodup⟩, ⟨_, hfresh⟩, hresult⟩
          refine ⟨hall, hnodup, fun q hq other hother => ?_, hresult⟩
          rcases hother with hother | rfl
          · exact hfresh q hq other hother
          · intro heq
            exact hnot ⟨q, hq, heq.symm.trans hid⟩

end resolve

/-! ## Configurations -/

/-- A definition with the topics selected for a run. -/
structure ReleaseTools where
  definition : AgentDefinition
  selectedTopicIds : Option (List String)

namespace ReleaseTools

/-- The result of `releaseBoundAllowedTools`. -/
def allowedTools (c : ReleaseTools) : Except String (List String) :=
  releaseBoundAllowedTools c.definition c.selectedTopicIds

/-- The topic bindings of the definition are valid: resolving those of all topics succeeds. -/
def Valid (c : ReleaseTools) : Prop :=
  ∃ bindings, resolveReachableBindings c.definition none = .ok bindings

/-- A selected topic binds the tool. -/
def Binds (c : ReleaseTools) (name : String) : Prop :=
  ∃ topic ∈ c.definition.topics, selects c.selectedTopicIds topic.id = true ∧
    ∃ bindingId ∈ topic.toolBindingIds, ∃ binding, c.definition.binding? bindingId = some binding ∧
      binding.toolName.map trim = some name

/-- The tools that the selected topics bind. -/
def bound (c : ReleaseTools) : Set String :=
  {name | c.Binds name}

/-- The tools that `permissionConfig.allowedTools` names. -/
def permitted (c : ReleaseTools) : Set String :=
  {name | name ∈ trimmedEntries c.definition.permissionConfig.allowedTools}

/-- The tools that `permissionConfig.blockedTools` names. -/
def blocked (c : ReleaseTools) : Set String :=
  {name | name ∈ trimmedEntries c.definition.permissionConfig.blockedTools}

/-- The definition binds a tool to some topic. -/
def BindsTools (c : ReleaseTools) : Prop :=
  ∃ topic ∈ c.definition.topics, topic.toolBindingIds ≠ []

/-- The topics that a run is restricted to. -/
def topicIds (c : ReleaseTools) : List String :=
  match c.selectedTopicIds with
  | some (first :: rest) => first :: rest
  | _ => c.definition.topics.map (·.id)

end ReleaseTools

/-- One way to narrow a configuration. -/
inductive Narrows : ReleaseTools → ReleaseTools → Prop where
  | selectTopics {c : ReleaseTools} {ids : List String} (hne : ids ≠ []) (hsub : ids ⊆ c.topicIds) :
    Narrows c { c with selectedTopicIds := some ids }
  | removeAllowed {d : AgentDefinition} {selected : Option (List String)}
    {before after : List (Option String)} {value : Option String}
    (h : d.permissionConfig.allowedTools = before ++ value :: after) :
    Narrows ⟨d, selected⟩
      ⟨{ d with permissionConfig := { d.permissionConfig with allowedTools := before ++ after } },
        selected⟩
  | removeBinding {d : AgentDefinition} {selected : Option (List String)}
    {before after : List TopicDefinition} {topic : TopicDefinition}
    {bindingsBefore bindingsAfter : List String} {bindingId : String}
    (h : d.topics = before ++ topic :: after)
    (hbinding : topic.toolBindingIds = bindingsBefore ++ bindingId :: bindingsAfter) :
    Narrows ⟨d, selected⟩
      ⟨{ d with
          topics := before ++
            { topic with toolBindingIds := bindingsBefore ++ bindingsAfter } :: after },
        selected⟩
  | block {d : AgentDefinition} {selected : Option (List String)}
    {before after : List (Option String)} {value : Option String}
    (h : d.permissionConfig.blockedTools = before ++ after) :
    Narrows ⟨d, selected⟩
      ⟨{ d with
          permissionConfig := { d.permissionConfig with blockedTools := before ++ value :: after } },
        selected⟩

/-! ## Steps and chains of narrowing -/

/-- Without a selection every topic is selected. -/
lemma selects_none (id : String) : selects none id = true := rfl

/-- A topic of the definition is selected by its ids. -/
lemma selects_topicIds {c : ReleaseTools} {topic : TopicDefinition}
    (h : topic ∈ c.definition.topics) :
    selects c.selectedTopicIds topic.id = true ↔ topic.id ∈ c.topicIds := by
  obtain ⟨definition, selected⟩ := c
  have hid : topic.id ∈ definition.topics.map (·.id) := List.mem_map_of_mem h
  rcases selected with _ | _ | ⟨first, rest⟩
  · exact ⟨fun _ => hid, fun _ => rfl⟩
  · exact ⟨fun _ => hid, fun _ => rfl⟩
  · show (first :: rest).contains topic.id = true ↔ topic.id ∈ first :: rest
    exact List.contains_iff_mem

/-- The bindings that the loops run through when all topics are selected. -/
lemma reachable_none (d : AgentDefinition) :
    d.reachable none =
      d.topics.flatMap fun topic => topic.toolBindingIds.map fun id => (topic.id, id) := by
  unfold AgentDefinition.reachable
  have hall : d.topics.filter (fun topic => selects none topic.id) = d.topics :=
    List.filter_eq_self.2 fun topic _ => selects_none topic.id
  rw [hall]

/-- A selection reaches a part. -/
lemma reachable_sublist (d : AgentDefinition) (selected : Option (List String)) :
    (d.reachable selected).Sublist (d.reachable none) := by
  rw [reachable_none]
  exact List.filter_sublist.flatMap _

/-- What is reached. -/
lemma mem_reachable {d : AgentDefinition} {selected : Option (List String)}
    {p : String × String} :
    p ∈ d.reachable selected ↔
      ∃ topic ∈ d.topics, selects selected topic.id = true ∧ p.1 = topic.id ∧
        p.2 ∈ topic.toolBindingIds := by
  unfold AgentDefinition.reachable
  simp only [List.mem_flatMap, List.mem_filter, List.mem_map]
  constructor
  · rintro ⟨topic, ⟨htopic, hsel⟩, id, hid, rfl⟩
    exact ⟨topic, htopic, hsel, rfl, hid⟩
  · intro ⟨topic, htopic, hsel, hfirst, hsecond⟩
    exact ⟨topic, ⟨htopic, hsel⟩, p.2, hsecond, Prod.ext hfirst.symm rfl⟩

namespace ReleaseTools
variable {c c' : ReleaseTools}

/-- When the tools of a release are valid. -/
lemma valid_iff :
    c.Valid ↔
      (∀ p ∈ c.definition.reachable none, (c.definition.bindingOf p.1 p.2).isSome = true) ∧
        ((c.definition.reachable none).map Prod.snd).Nodup := by
  constructor
  · intro ⟨bindings, h⟩
    obtain ⟨hall, hnodup, _⟩ := resolveBindings_eq_ok.1 h
    exact ⟨hall, hnodup⟩
  · intro ⟨hall, hnodup⟩
    exact ⟨_, resolveBindings_eq_ok.2 ⟨hall, hnodup, by simp, rfl⟩⟩

/-- With valid bindings the tools that the loops resolve are those that the selected topics bind. -/
lemma Valid.resolve (h : c.Valid) :
    ∃ bindings, resolveReachableBindings c.definition c.selectedTopicIds = .ok bindings ∧
      ∀ name, name ∈ bindings.filterMap (fun binding => binding.toolName.map trim) ↔
        name ∈ c.bound := by
  obtain ⟨hall, hnodup⟩ := valid_iff.1 h
  have hsub := reachable_sublist c.definition c.selectedTopicIds
  refine ⟨_, resolveBindings_eq_ok.2 ⟨fun p hp => hall p (hsub.subset hp),
    hnodup.sublist (hsub.map _), by simp, rfl⟩, fun name => ?_⟩
  rw [List.nil_append, List.mem_filterMap]
  constructor
  · rintro ⟨binding, hbinding, hname⟩
    obtain ⟨p, hp, hof⟩ := List.mem_filterMap.1 hbinding
    obtain ⟨topic, htopic, hsel, _, hid⟩ := mem_reachable.1 hp
    exact ⟨topic, htopic, hsel, p.2, hid, binding, (Option.filter_eq_some_iff.1 hof).1, hname⟩
  · rintro ⟨topic, htopic, hsel, id, hid, binding, hfound, hname⟩
    have hp : (topic.id, id) ∈ c.definition.reachable c.selectedTopicIds :=
      mem_reachable.2 ⟨topic, htopic, hsel, rfl, hid⟩
    obtain ⟨valid, hvalid⟩ := Option.isSome_iff_exists.1 (hall _ (hsub.subset hp))
    have heq : binding = valid := by
      have hfound' := (Option.filter_eq_some_iff.1 hvalid).1
      exact Option.some.inj (hfound.symm.trans hfound')
    exact ⟨binding, List.mem_filterMap.2 ⟨_, hp, heq ▸ hvalid⟩, hname⟩

/-- The three formulas on lists choose what `chosen` says of their sets. -/
lemma mem_selected {bound permitted : List String} {B P : Set String} {name : String}
    (hB : ∀ name, name ∈ bound ↔ name ∈ B) (hP : ∀ name, name ∈ permitted ↔ name ∈ P) :
    (name ∈ if 0 < bound.length ∧ 0 < permitted.length then bound.filter (permitted.contains ·)
      else if 0 < bound.length then bound else permitted) ↔
      (B = ∅ → name ∈ P) ∧ (B.Nonempty → name ∈ B ∧ (P.Nonempty → name ∈ P)) := by
  have hBpos : 0 < bound.length ↔ B.Nonempty := by
    rw [List.length_pos_iff_exists_mem]
    exact exists_congr hB
  have hPpos : 0 < permitted.length ↔ P.Nonempty := by
    rw [List.length_pos_iff_exists_mem]
    exact exists_congr hP
  -- with nothing bound the permitted tools are taken, and the other way round
  rcases B.eq_empty_or_nonempty with hempty | hne
  · have hno : ¬ 0 < bound.length := fun h => (hBpos.1 h).ne_empty hempty
    rw [if_neg fun h => hno h.1, if_neg hno, hP]
    exact ⟨fun h => ⟨fun _ => h, fun hne => absurd hempty hne.ne_empty⟩, fun h => h.1 hempty⟩
  · have hbound : 0 < bound.length := hBpos.2 hne
    by_cases hpermitted : 0 < permitted.length
    · rw [if_pos ⟨hbound, hpermitted⟩, List.mem_filter, List.contains_iff_mem, hB, hP]
      constructor
      · intro h
        exact ⟨fun hempty => absurd hempty hne.ne_empty, fun _ => ⟨h.1, fun _ => h.2⟩⟩
      · intro ⟨_, h⟩
        exact ⟨(h hne).1, (h hne).2 (hPpos.1 hpermitted)⟩
    · rw [if_neg fun h => hpermitted h.2, if_pos hbound, hB]
      constructor
      · intro h
        exact ⟨fun hempty => absurd hempty hne.ne_empty,
          fun _ => ⟨h, fun hp => absurd (hPpos.2 hp) hpermitted⟩⟩
      · intro ⟨_, h⟩
        exact (h hne).1

/-- The list that the code returns is the set that the formulas choose. -/
theorem Valid.allowedTools (h : c.Valid) :
    ∃ tools, c.allowedTools = .ok tools ∧
      ∀ name, name ∈ tools ↔ name ∈ chosen c.bound c.permitted c.blocked := by
  obtain ⟨bindings, hresolve, hbound⟩ := h.resolve
  have hpermitted : ∀ name, name ∈ distinct (trimmedEntries
      c.definition.permissionConfig.allowedTools) ↔ name ∈ c.permitted := fun name => mem_distinct
  have hblocked : ∀ name, name ∈ distinct (trimmedEntries
      c.definition.permissionConfig.blockedTools) ↔ name ∈ c.blocked := fun name => mem_distinct
  unfold ReleaseTools.allowedTools releaseBoundAllowedTools
  rw [hresolve]
  refine ⟨_, rfl, fun name => ?_⟩
  unfold sortTexts
  rw [List.mem_insertionSort, List.mem_filter, mem_distinct,
    mem_selected (fun name => mem_distinct.trans (hbound name)) hpermitted, Bool.not_eq_true',
    ← Bool.not_eq_true, List.contains_iff_mem, hblocked]
  exact ⟨fun h => ⟨h.2, h.1⟩, fun h => ⟨h.2, h.1⟩⟩

end ReleaseTools

/-! ### What narrowing shrinks -/

/-- The second configuration binds, permits and allows no more than the first, and is valid. -/
structure Shrinks (c c' : ReleaseTools) : Prop where
  valid : c'.Valid
  bound : c'.bound ⊆ c.bound
  permitted : c'.permitted ⊆ c.permitted
  blocked : c.blocked ⊆ c'.blocked

/-- Valid bindings stay valid where fewer are named. -/
lemma ReleaseTools.Valid.of_sublist {c c' : ReleaseTools} (h : c.Valid)
    (hbindings : c'.definition.toolBindings = c.definition.toolBindings)
    (hsub : (c'.definition.reachable none).Sublist (c.definition.reachable none)) : c'.Valid := by
  obtain ⟨hall, hnodup⟩ := valid_iff.1 h
  refine valid_iff.2 ⟨fun p hp => ?_, hnodup.sublist (hsub.map _)⟩
  have hsome := hall p (hsub.subset hp)
  unfold AgentDefinition.bindingOf AgentDefinition.binding? at hsome ⊢
  rw [hbindings]
  exact hsome

/-- The names that are left after trimming. -/
lemma mem_trimmedEntries {values : List (Option String)} {name : String} :
    name ∈ trimmedEntries values ↔ ∃ value ∈ values, nonEmpty (value.map trim) = some name :=
  List.mem_filterMap

/-- More values leave more names. -/
lemma trimmedEntries_mono {values values' : List (Option String)} (h : values ⊆ values') :
    trimmedEntries values ⊆ trimmedEntries values' := by
  intro name hname
  obtain ⟨value, hvalue, heq⟩ := mem_trimmedEntries.1 hname
  exact mem_trimmedEntries.2 ⟨value, h hvalue, heq⟩

/-- A list is within the list with one more value. -/
lemma subset_insert {α : Type} (before after : List α) (value : α) :
    before ++ after ⊆ before ++ value :: after := by
  intro x hx
  simp only [List.mem_append, List.mem_cons] at hx ⊢
  rcases hx with hx | hx
  · exact .inl hx
  · exact .inr (.inr hx)

/-- What one step of narrowing does, one case for each of its forms. -/
lemma Narrows.shrinks {c c' : ReleaseTools} (h : Narrows c c') (hvalid : c.Valid) :
    Shrinks c c' := by
  -- one case for each way to narrow: an entry is taken out, or one more is blocked
  cases h with
  | @selectTopics _ ids hne hsub =>
    refine ⟨hvalid.of_sublist rfl (List.Sublist.refl _), ?_, fun _ h => h, fun _ h => h⟩
    rintro name ⟨topic, htopic, hsel, hrest⟩
    have hin : topic ∈ c.definition.topics := htopic
    refine ⟨topic, hin, (selects_topicIds hin).2 ?_, hrest⟩
    cases ids with
    | nil => exact absurd rfl hne
    | cons first rest => exact hsub (List.contains_iff_mem.1 hsel)
  | @removeAllowed d selected before after value h =>
    refine ⟨hvalid.of_sublist rfl (List.Sublist.refl _), fun _ h => h, ?_, fun _ h => h⟩
    have hsub := trimmedEntries_mono (subset_insert before after value)
    intro name hname
    show name ∈ trimmedEntries _
    rw [h]
    exact hsub hname
  | @removeBinding d selected before after topic bindingsBefore bindingsAfter bindingId h hbinding =>
    refine ⟨hvalid.of_sublist rfl ?_, ?_, fun _ h => h, fun _ h => h⟩
    · rw [reachable_none, reachable_none, h]
      simp only [List.flatMap_append, List.flatMap_cons]
      refine (List.Sublist.refl _).append (List.Sublist.append ?_ (List.Sublist.refl _))
      rw [hbinding]
      exact ((List.Sublist.refl _).append (List.sublist_cons_self _ _)).map _
    · rintro name ⟨other, hother, hsel, id, hid, hrest⟩
      show ∃ topic ∈ d.topics, _
      rw [h]
      simp only [List.mem_append, List.mem_cons] at hother ⊢
      rcases hother with hother | rfl | hother
      · exact ⟨other, .inl hother, hsel, id, hid, hrest⟩
      · refine ⟨topic, .inr (.inl rfl), hsel, id, ?_, hrest⟩
        rw [hbinding]
        exact subset_insert _ _ _ hid
      · exact ⟨other, .inr (.inr hother), hsel, id, hid, hrest⟩
  | @block d selected before after value h =>
    refine ⟨hvalid.of_sublist rfl (List.Sublist.refl _), fun _ h => h, fun _ h => h, ?_⟩
    have hsub := trimmedEntries_mono (subset_insert before after value)
    intro name hname
    have hname' : name ∈ trimmedEntries _ := hname
    rw [h] at hname'
    exact hsub hname'

/-- Any number of steps, in any order. -/
theorem shrinks_of_chain {c c' : ReleaseTools} (h : Relation.ReflTransGen Narrows c c')
    (hvalid : c.Valid) : Shrinks c c' := by
  induction h with
  | refl => exact ⟨hvalid, fun _ h => h, fun _ h => h, fun _ h => h⟩
  | tail _ hstep ih =>
    have next := hstep.shrinks ih.valid
    exact ⟨next.valid, next.bound.trans ih.bound, next.permitted.trans ih.permitted,
      ih.blocked.trans next.blocked⟩

/-! ## Narrowing and the tools -/

/-- What a narrowing from `c` to `c'` promises: no tool is gained, and a definition that binds tools
to topics returns tools that a selected topic binds. -/
def NeverWidens (c c' : ReleaseTools) : Prop :=
  ∃ tools tools', c.allowedTools = .ok tools ∧ c'.allowedTools = .ok tools' ∧ tools' ⊆ tools ∧
    (c'.BindsTools → ∀ name ∈ tools', c'.Binds name)

/-- Where the formulas keep the promise: a configuration that lost its last bound tool, or selects
topics without any although others have some, permits nothing that was not bound, and one that lost
its last permitted tool binds nothing that was not permitted, the blocked tools apart. -/
structure KeepsFormula (c c' : ReleaseTools) : Prop where
  bound : c'.bound = ∅ → c.bound.Nonempty → c'.permitted \ c'.blocked ⊆ c.bound
  permitted : c'.permitted = ∅ → c.permitted.Nonempty → c'.bound \ c'.blocked ⊆ c.permitted
  unselected : c'.bound = ∅ → c'.BindsTools → c'.permitted ⊆ c'.blocked

/-- After any chain of narrowing steps the promise is kept exactly under `KeepsFormula`. -/
theorem never_widens_iff {c c' : ReleaseTools} (hvalid : c.Valid)
    (h : Relation.ReflTransGen Narrows c c') : NeverWidens c c' ↔ KeepsFormula c c' := by
  have shrinks := shrinks_of_chain h hvalid
  obtain ⟨tools, htools, hmem⟩ := hvalid.allowedTools
  obtain ⟨tools', htools', hmem'⟩ := shrinks.valid.allowedTools
  have hsubset : tools' ⊆ tools ↔
      chosen c'.bound c'.permitted c'.blocked ⊆ chosen c.bound c.permitted c.blocked := by
    constructor
    · intro hsub name hname
      exact (hmem name).1 (hsub ((hmem' name).2 hname))
    · intro hsub name hname
      exact (hmem name).2 (hsub ((hmem' name).1 hname))
  -- where nothing is bound, what is left is permitted and not blocked
  have hbinds : (∀ name ∈ tools', c'.Binds name) ↔ (c'.bound = ∅ → c'.permitted ⊆ c'.blocked) := by
    constructor
    · intro hall hempty name hname
      by_contra hfree
      have hin : name ∈ chosen c'.bound c'.permitted c'.blocked := by
        rw [hempty, chosen_empty]
        exact ⟨hname, hfree⟩
      have hbound : name ∈ c'.bound := hall name ((hmem' name).2 hin)
      rw [hempty] at hbound
      exact hbound
    · intro hunbound name hname
      have hin := (hmem' name).1 hname
      rcases c'.bound.eq_empty_or_nonempty with hempty | hne
      · exact absurd (hunbound hempty (hin.2.1 hempty)) hin.1
      · exact (hin.2.2 hne).1
  have hformula := chosen_subset_iff shrinks.bound shrinks.permitted shrinks.blocked
  constructor
  · rintro ⟨_, _, hrun, hrun', hsub, hall⟩
    obtain rfl := Except.ok.inj (htools.symm.trans hrun)
    obtain rfl := Except.ok.inj (htools'.symm.trans hrun')
    obtain ⟨hbound, hpermitted⟩ := hformula.1 (hsubset.1 hsub)
    exact ⟨hbound, hpermitted, fun hempty hsome => hbinds.1 (hall hsome) hempty⟩
  · intro keeps
    refine ⟨tools, tools', htools, htools', hsubset.2 (hformula.2 ⟨keeps.bound, keeps.permitted⟩),
      fun hsome => hbinds.2 fun hempty => keeps.unselected hempty hsome⟩

/-! ### Two topics -/

/-- One topic looks records up, the other only talks; the agent may also send mail. -/
def helpDesk : AgentDefinition where
  topics := [{ id := "lookup", toolBindingIds := ["b"] }, { id := "smalltalk", toolBindingIds := [] }]
  toolBindings := [{ id := "b", toolName := some "record.search", topicId := "lookup" }]
  permissionConfig :=
    { allowedTools := [some "record.search", some "mail.send"]
      blockedTools := [] }

/-- Restricting all topics to the one that looks up keeps the promise. -/
theorem lookup_never_widens :
    NeverWidens ⟨helpDesk, none⟩ ⟨helpDesk, some ["lookup"]⟩ ↔
      KeepsFormula ⟨helpDesk, none⟩ ⟨helpDesk, some ["lookup"]⟩ :=
  never_widens_iff ⟨_, rfl⟩
    (.single (.selectTopics (c := ⟨helpDesk, none⟩) (by decide) (by decide)))

/-- Restricting all topics to the one without tools allows mail, which no topic binds. -/
theorem smalltalk_widens :
    Narrows ⟨helpDesk, none⟩ ⟨helpDesk, some ["smalltalk"]⟩ ∧
      ¬ NeverWidens ⟨helpDesk, none⟩ ⟨helpDesk, some ["smalltalk"]⟩ := by
  have hbefore : (⟨helpDesk, none⟩ : ReleaseTools).allowedTools = .ok ["record.search"] := by
    decide +kernel
  have hafter : (⟨helpDesk, some ["smalltalk"]⟩ : ReleaseTools).allowedTools =
      .ok ["mail.send", "record.search"] := by
    decide +kernel
  refine ⟨.selectTopics (c := ⟨helpDesk, none⟩) (by decide) (by decide), ?_⟩
  rintro ⟨tools, tools', htools, htools', hsub, _⟩
  obtain rfl := Except.ok.inj (hbefore.symm.trans htools)
  obtain rfl := Except.ok.inj (hafter.symm.trans htools')
  exact absurd (hsub (List.mem_cons_self ..)) (by decide)

end NexusClaw.AgentRuntime
