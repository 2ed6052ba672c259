import Mathlib.Data.List.Nodup
import NexusClaw.Governance.Footprint

/-!
# Aggregated tools

`createMcpGateway` fronts several MCP servers: a tool of an upstream is offered as
`<server>__<tool>`, and a call is dispatched by that name through a map. A server or a tool may have
the separator in its own name, so the names are ambiguous in general; `Unambiguous` says of a list of
upstreams that no two of its tools are written alike.
-/

namespace NexusClaw.Governance
open Concurrent

/-! ## Names joined with a separator -/

/-- Two joined names are one text when the names are the same or when the longer first name runs into
the separator of the other: by one character of it, or past it. -/
lemma append_separator_eq {α : Type} {c : α} {u v t s : List α} (hle : u.length ≤ v.length) :
    u ++ [c, c] ++ t = v ++ [c, c] ++ s ↔
      (u = v ∧ t = s) ∨ (v = u ++ [c] ∧ t = c :: s) ∨
        ∃ x, v = u ++ [c, c] ++ x ∧ t = x ++ [c, c] ++ s := by
  constructor
  · intro h
    rw [List.append_assoc, List.append_assoc] at h
    obtain ⟨more, hv, hrest⟩ | ⟨more, hu, hrest⟩ := List.append_eq_append_iff.1 h
    · cases more with
      | nil =>
        rw [List.append_nil] at hv
        exact .inl ⟨hv.symm, by simpa using hrest⟩
      | cons a more =>
        cases more with
        | nil =>
          obtain ⟨ha, hsame⟩ := List.cons.inj hrest
          obtain ⟨-, hsame⟩ := List.cons.inj hsame
          exact .inr (.inl ⟨ha ▸ hv, hsame⟩)
        | cons b more =>
          obtain ⟨ha, hsame⟩ := List.cons.inj hrest
          obtain ⟨hb, hsame⟩ := List.cons.inj hsame
          refine .inr (.inr ⟨more, ?_, ?_⟩)
          · rw [hv, ← ha, ← hb, List.append_assoc]
            rfl
          · rw [List.append_assoc]
            exact hsame
    · -- the first name is the shorter one, so nothing of it is left over
      have hnone : more = [] := by
        have hlength := congrArg List.length hu
        rw [List.length_append] at hlength
        exact List.length_eq_zero_iff.1 (by omega)
      subst hnone
      rw [List.append_nil] at hu
      exact .inl ⟨hu, by simpa using hrest.symm⟩
  · rintro (⟨rfl, rfl⟩ | ⟨rfl, rfl⟩ | ⟨x, rfl, rfl⟩)
    · rfl
    · simp
    · simp

/-! ## The gateway -/

/-- A tool as an upstream lists it. -/
structure UpstreamTool where
  name : String
  description : Option String := none
  inputSchema : Json := .empty

/-- A server that the gateway fronts, with the answer of `listTools` when the gateway is created. -/
structure Upstream where
  name : String
  listTools : Except String (List UpstreamTool)

/-- The tools of an upstream; those of an unreachable one are absent. -/
def Upstream.tools (upstream : Upstream) : List UpstreamTool :=
  match upstream.listTools with
  | .ok tools => tools
  | .error _ => []

/-- The entry of a tool in `aggregated`. -/
def aggregatedTool (upstream : Upstream) (tool : UpstreamTool) : AggregatedTool where
  upstream := upstream.name
  name := tool.name
  aggregatedName := upstream.name ++ "__" ++ tool.name

/-- The tools of all upstreams, each with its entry. -/
def aggregate (upstreams : List Upstream) : List (AggregatedTool × UpstreamTool) :=
  upstreams.flatMap fun upstream =>
    upstream.tools.map fun tool => (aggregatedTool upstream tool, tool)

/-- The configuration of `createMcpGateway`: calls are dispatched among the aggregated tools. -/
def createMcpGateway (cfg : Config) (upstreams : List Upstream) : Config :=
  { cfg with aggregated := (aggregate upstreams).map Prod.fst }

/-- `visible` -/
def visible (cfg : Config) (exposeDeniedTools : Bool) (upstreams : List Upstream) :
    List (AggregatedTool × UpstreamTool) :=
  if exposeDeniedTools then aggregate upstreams
  else (aggregate upstreams).filter fun tool => cfg.allowedTools.contains tool.1.aggregatedName

/-- The entry for the lookup tool in the list. -/
def lookupEntry : UpstreamTool where
  name := pendingLookupTool
  description := some
    ("Fetch the outcome of a gated call that paused for human approval: still pending, " ++
      "the executed result (after approval), or the rejection.")
  inputSchema :=
    .obj
      [("type", .str "object"),
        ("properties", .obj [("approval_id", .obj [("type", .str "string")])]),
        ("required", .arr [.str "approval_id"])]

/-- The `tools/list` handler. -/
def toolsList (cfg : Config) (exposeDeniedTools : Bool) (upstreams : List Upstream) :
    List UpstreamTool :=
  (visible cfg exposeDeniedTools upstreams).map
    (fun tool => { tool.2 with name := tool.1.aggregatedName }) ++ [lookupEntry]

/-! ## Routing -/

/-- A statement that calls no other upstream tool. -/
def Stmt.callsOnly (tool : AggregatedTool) : Stmt → Prop
  | .callTool _ called _ => called = tool
  | _ => True

/-- A call under `name` is dispatched to `tool`: no upstream call is made to another one, and a call
that the gate allows is made there. -/
structure DispatchedTo (cfg : Config) (name : String) (tool : AggregatedTool) : Prop where
  only : ∀ elicitation args, (toolsCall cfg elicitation name args).Uses (Stmt.callsOnly tool)
  allowed : ∀ ans elicitation args w w' executionId callId,
    (gate cfg name args).run (exec ans) w = (.ok (.allow executionId callId), w') →
    (toolsCall cfg elicitation name args).run (exec ans) w =
      (executeAndComplete cfg none tool executionId args).run (exec ans) w'

/-- The names that a gateway over the upstreams gives route to the tools that advertise them. -/
structure RoutesAsAdvertised (cfg : Config) (upstreams : List Upstream) : Prop where
  /-- What the list offers is dispatched to the tool that is behind it. -/
  dispatched : ∀ exposeDeniedTools, ∀ tool ∈ visible cfg exposeDeniedTools upstreams,
    DispatchedTo (createMcpGateway cfg upstreams) tool.1.aggregatedName tool.1
  distinct : ∀ u ∈ upstreams, ∀ t ∈ u.tools, ∀ v ∈ upstreams, ∀ s ∈ v.tools,
    (aggregatedTool u t).aggregatedName = (aggregatedTool v s).aggregatedName → u = v ∧ t = s
  builtin : ∀ u ∈ upstreams, ∀ t ∈ u.tools,
    (aggregatedTool u t).aggregatedName ≠ pendingLookupTool
  /-- Under a grant of one name no call reaches another upstream, and none of its tools is listed. -/
  granted : ∀ u ∈ upstreams, ∀ t ∈ u.tools, ∀ v ∈ upstreams, ∀ s ∈ v.tools,
    u.name ≠ v.name →
    let granting := { cfg with allowedTools := [(aggregatedTool u t).aggregatedName] }
    (∀ tool ∈ visible granting false upstreams, tool.1.upstream = u.name) ∧
      ∀ elicitation args, (toolsCall (createMcpGateway granting upstreams) elicitation
        (aggregatedTool v s).aggregatedName args).Uses fun stmt =>
          ∀ approvalId tool input, stmt ≠ .callTool approvalId tool input

/-- No two tools of the upstreams have one aggregated name, and none has the name of the lookup
tool: a server's name does not go on where another's ends with the separator, or with half of it,
while the other lists a tool whose name makes up for the rest. -/
structure Unambiguous (upstreams : List Upstream) : Prop where
  trailing : ∀ u ∈ upstreams, ∀ v ∈ upstreams, v.name = u.name ++ "_" →
    ∀ t ∈ u.tools, ∀ s ∈ v.tools, t.name ≠ "_" ++ s.name
  nested : ∀ u ∈ upstreams, ∀ v ∈ upstreams, ∀ infixed, v.name = u.name ++ "__" ++ infixed →
    ∀ t ∈ u.tools, ∀ s ∈ v.tools, t.name ≠ infixed ++ "__" ++ s.name
  lookup : ∀ u ∈ upstreams, u.name = "governance_pending" → ∀ t ∈ u.tools, t.name ≠ "lookup"

section routing
variable {cfg : Config} {upstreams : List Upstream}

/-- The tools of all upstreams. -/
lemma mem_aggregate {entry : AggregatedTool × UpstreamTool} :
    entry ∈ aggregate upstreams ↔
      ∃ u ∈ upstreams, ∃ t ∈ u.tools, entry = (aggregatedTool u t, t) := by
  unfold aggregate
  simp only [List.mem_flatMap, List.mem_map, eq_comm]

/-- A visible tool is one of them. -/
lemma mem_of_visible {exposeDeniedTools : Bool} {entry : AggregatedTool × UpstreamTool}
    (h : entry ∈ visible cfg exposeDeniedTools upstreams) : entry ∈ aggregate upstreams := by
  cases exposeDeniedTools with
  | true => exact h
  | false => exact List.mem_of_mem_filter h

/-- Two aggregated names, character by character. -/
lemma aggregatedName_eq_iff {u v : Upstream} {t s : UpstreamTool} :
    (aggregatedTool u t).aggregatedName = (aggregatedTool v s).aggregatedName ↔
      u.name.toList ++ ['_', '_'] ++ t.name.toList =
        v.name.toList ++ ['_', '_'] ++ s.name.toList := by
  rw [← String.toList_inj]
  simp only [aggregatedTool, String.toList_append]
  exact Iff.rfl

/-- The longer name of two that give one text. -/
lemma Unambiguous.eq_of_le (h : Unambiguous upstreams) {u v : Upstream} (hu : u ∈ upstreams)
    (hv : v ∈ upstreams) {t s : UpstreamTool} (ht : t ∈ u.tools) (hs : s ∈ v.tools)
    (hle : u.name.toList.length ≤ v.name.toList.length)
    (hname : (aggregatedTool u t).aggregatedName = (aggregatedTool v s).aggregatedName) :
    u.name = v.name ∧ t.name = s.name := by
  rcases (append_separator_eq hle).1 (aggregatedName_eq_iff.1 hname) with
    ⟨huv, hts⟩ | ⟨hvu, hts⟩ | ⟨x, hvu, hts⟩
  · exact ⟨String.toList_inj.1 huv, String.toList_inj.1 hts⟩
  · refine absurd ?_ (h.trailing u hu v hv ?_ t ht s hs)
    · apply String.toList_inj.1
      rw [hts, String.toList_append]
      rfl
    · apply String.toList_inj.1
      rw [hvu, String.toList_append]
      rfl
  · refine absurd ?_ (h.nested u hu v hv (String.ofList x) ?_ t ht s hs)
    · apply String.toList_inj.1
      simp only [hts, String.toList_append, String.toList_ofList]
      rfl
    · apply String.toList_inj.1
      simp only [hvu, String.toList_append, String.toList_ofList]
      rfl

/-- Two tools of one name are of one upstream. -/
lemma Unambiguous.distinct (h : Unambiguous upstreams) {u v : Upstream} (hu : u ∈ upstreams)
    (hv : v ∈ upstreams) {t s : UpstreamTool} (ht : t ∈ u.tools) (hs : s ∈ v.tools)
    (hname : (aggregatedTool u t).aggregatedName = (aggregatedTool v s).aggregatedName) :
    u.name = v.name ∧ t.name = s.name := by
  rcases Nat.le_total u.name.toList.length v.name.toList.length with hle | hle
  · exact h.eq_of_le hu hv ht hs hle hname
  · obtain ⟨huv, hts⟩ := h.eq_of_le hv hu hs ht hle hname.symm
    exact ⟨huv.symm, hts.symm⟩

/-- The separator stands in the name of the lookup tool once. -/
lemma aggregatedName_lookup {u : Upstream} {t : UpstreamTool} :
    (aggregatedTool u t).aggregatedName = pendingLookupTool ↔
      u.name = "governance_pending" ∧ t.name = "lookup" := by
  constructor
  · intro h
    let builtin : Upstream := { name := "governance_pending", listTools := .ok [] }
    let tool : UpstreamTool := { name := "lookup" }
    have hname : (aggregatedTool u t).aggregatedName =
        (aggregatedTool builtin tool).aggregatedName := h
    rw [aggregatedName_eq_iff] at hname
    -- neither part of it holds the separator, or ends or begins with half of it
    have hserver : ¬ ['_', '_'] <:+: "governance_pending".toList := by decide +kernel
    have htool : ¬ ['_', '_'] <:+: "lookup".toList := by decide +kernel
    have hend : "governance_pending".toList.getLast? ≠ some '_' := by decide +kernel
    have hstart : "lookup".toList.head? ≠ some '_' := by decide +kernel
    rcases Nat.le_total u.name.toList.length builtin.name.toList.length with hle | hle
    · rcases (append_separator_eq hle).1 hname with ⟨hu, ht⟩ | ⟨hu, -⟩ | ⟨x, hu, -⟩
      · exact ⟨String.toList_inj.1 hu, String.toList_inj.1 ht⟩
      · have hlast := congrArg List.getLast? hu
        rw [List.getLast?_concat] at hlast
        exact absurd hlast hend
      · exact absurd ⟨u.name.toList, x, hu.symm⟩ hserver
    · rcases (append_separator_eq hle).1 hname.symm with ⟨hu, ht⟩ | ⟨-, ht⟩ | ⟨x, -, ht⟩
      · exact ⟨(String.toList_inj.1 hu).symm, (String.toList_inj.1 ht).symm⟩
      · exact absurd (congrArg List.head? ht) hstart
      · exact absurd ⟨x, t.name.toList, ht.symm⟩ htool
  · rintro ⟨hu, ht⟩
    unfold aggregatedTool
    rw [hu, ht]
    rfl

/-! ## Dispatch -/

/-- The map holds every tool under its own name when no two are written alike. -/
lemma Unambiguous.byAggregatedName (h : Unambiguous upstreams) (cfg : Config) {u : Upstream}
    (hu : u ∈ upstreams) {t : UpstreamTool} (ht : t ∈ u.tools) :
    (createMcpGateway cfg upstreams).byAggregatedName (aggregatedTool u t).aggregatedName =
      some (aggregatedTool u t) := by
  have hin : aggregatedTool u t ∈ (createMcpGateway cfg upstreams).aggregated.reverse :=
    List.mem_reverse.2 (List.mem_map.2 ⟨_, mem_aggregate.2 ⟨u, hu, t, ht, rfl⟩, rfl⟩)
  unfold Config.byAggregatedName
  cases hfound : (createMcpGateway cfg upstreams).aggregated.reverse.find?
      (·.aggregatedName = (aggregatedTool u t).aggregatedName) with
  | none =>
    have hno := List.find?_eq_none.1 hfound _ hin
    simp at hno
  | some found =>
    have hsame : found.aggregatedName = (aggregatedTool u t).aggregatedName := by
      simpa using List.find?_some hfound
    obtain ⟨entry, hentry, rfl⟩ :=
      List.mem_map.1 (List.mem_reverse.1 (List.mem_of_find?_eq_some hfound))
    obtain ⟨v, hv, s, hs, rfl⟩ := mem_aggregate.1 hentry
    obtain ⟨huv, hts⟩ := h.distinct hv hu hs ht hsame
    have heq : aggregatedTool v s = aggregatedTool u t := by
      unfold aggregatedTool
      rw [huv, hts]
    exact congrArg some heq

/-- A statement for the execution calls no tool. -/
lemma callsOnly_of_worksFor {cfg : Config} {tool : AggregatedTool} {executionId : Id} {stmt : Stmt}
    (h : stmt.worksFor cfg executionId) : stmt.callsOnly tool := by
  cases stmt <;> first | exact h.elim | trivial

/-- A released call calls its tool alone. -/
lemma executeAndComplete_callsOnly (cfg : Config) (tool : AggregatedTool) (approvalId : Option Id)
    (executionId : Id) (args : Json) :
    (executeAndComplete cfg approvalId tool executionId args).Uses (Stmt.callsOnly tool) := by
  refine Prog.Uses.call_bind rfl fun r => ?_
  cases r with
  | error error => exact Prog.Uses.bind (complete_uses (fun _ _ => callsOnly_of_worksFor) _ _) fun _ => trivial
  | ok result => exact Prog.Uses.bind (complete_uses (fun _ _ => callsOnly_of_worksFor) _ _) fun _ => trivial

/-- So does a call that the client decides. -/
lemma elicitDecision_callsOnly (cfg : Config) (tool : AggregatedTool) (name : String) (args : Json)
    (executionId approvalId : Id) (riskLevel : String) :
    (elicitDecision cfg tool name args executionId approvalId riskLevel).Uses
      (Stmt.callsOnly tool) := by
  refine Prog.Uses.call_bind trivial fun answered => ?_
  cases answered with
  | error error => trivial
  | ok answer =>
    refine Prog.uses_ite.2 ⟨fun _ => ?_, fun _ => ?_⟩
    · refine Prog.Uses.bind (decideApproval_uses (fun _ => trivial) (fun _ _ => trivial)
        (fun _ _ => trivial) _ _ _) fun _ => ?_
      exact executeAndComplete_callsOnly cfg tool (some approvalId) executionId args
    · exact Prog.Uses.bind (decideApproval_uses (fun _ => trivial) (fun _ _ => trivial)
        (fun _ _ => trivial) _ _ _) fun _ => trivial

/-- The handler on a name that the map knows. -/
lemma dispatchedTo {cfg : Config} {name : String} {tool : AggregatedTool}
    (hbuiltin : name ≠ pendingLookupTool) (hknown : cfg.byAggregatedName name = some tool) :
    DispatchedTo cfg name tool where
  only := by
    intro elicitation args
    unfold toolsCall
    rw [if_neg hbuiltin, hknown]
    refine Prog.Uses.bind (gate_uses (fun _ _ => callsOnly_of_worksFor) (fun _ => trivial) name args)
      fun verdict => ?_
    cases verdict with
    | blocked e callId reason => trivial
    | allow e callId => exact executeAndComplete_callsOnly cfg tool none e args
    | paused e callId a riskLevel =>
      cases elicitation with
      | true => exact elicitDecision_callsOnly cfg tool name args e a riskLevel
      | false => trivial
  allowed := by
    intro ans elicitation args w w' executionId callId hgate
    unfold toolsCall
    rw [if_neg hbuiltin, hknown]
    exact Prog.run_bind_ok _ hgate

/-- The gate refuses what is not granted. -/
lemma gate_refuses {cfg : Config} {name : String} (hdenied : name ∉ cfg.allowedTools) (args : Json) :
    (gate cfg name args).Ends fun r => ∃ e callId reason, r = .blocked e callId reason := by
  have haccess : checkToolAccess name cfg.allowedTools [] = false := by
    unfold checkToolAccess
    simp [hdenied]
  unfold gate
  refine Prog.Ends.bind (Prog.ends_true _) fun execution _ => ?_
  refine Prog.Ends.bind (Prog.ends_true _) fun _ _ => ?_
  refine Prog.Ends.bind (Prog.ends_true _) fun call _ => ?_
  unfold judgeCall
  rw [haccess]
  refine Prog.Ends.bind (Prog.ends_true _) fun _ _ => ?_
  refine Prog.Ends.bind (Prog.ends_true _) fun _ _ => ?_
  exact ⟨execution.id, call.id, _, rfl⟩

/-- A call under a name that is not granted makes no upstream call. -/
lemma toolsCall_refused {cfg : Config} {name : String} (hbuiltin : name ≠ pendingLookupTool)
    (hdenied : name ∉ cfg.allowedTools) (elicitation : Bool) (args : Json) :
    (toolsCall cfg elicitation name args).Uses fun stmt =>
      ∀ approvalId tool input, stmt ≠ .callTool approvalId tool input := by
  unfold toolsCall
  rw [if_neg hbuiltin]
  cases cfg.byAggregatedName name with
  | none => trivial
  | some tool =>
    have hgate : (gate cfg name args).Uses fun stmt =>
        ∀ approvalId tool input, stmt ≠ .callTool approvalId tool input := by
      refine gate_uses (fun e stmt h => ?_) (fun row => ?_) name args
      · rintro approvalId tool input rfl
        exact h
      · exact fun approvalId tool input h => by cases h
    refine hgate.bind_ends (gate_refuses hdenied args) fun verdict hverdict => ?_
    obtain ⟨e, callId, reason, rfl⟩ := hverdict
    trivial

/-- A tool is granted by its name alone. -/
lemma Unambiguous.granted (h : Unambiguous upstreams) (cfg : Config) {u v : Upstream}
    (hu : u ∈ upstreams) (hv : v ∈ upstreams) {t s : UpstreamTool} (ht : t ∈ u.tools)
    (hs : s ∈ v.tools) (hne : u.name ≠ v.name) :
    let granting := { cfg with allowedTools := [(aggregatedTool u t).aggregatedName] }
    (∀ tool ∈ visible granting false upstreams, tool.1.upstream = u.name) ∧
      ∀ elicitation args, (toolsCall (createMcpGateway granting upstreams) elicitation
        (aggregatedTool v s).aggregatedName args).Uses fun stmt =>
          ∀ approvalId tool input, stmt ≠ .callTool approvalId tool input := by
  intro granting
  refine ⟨fun entry hentry => ?_, fun elicitation args => toolsCall_refused ?_ ?_ elicitation args⟩
  · obtain ⟨hin, hlisted⟩ := List.mem_filter.1 hentry
    obtain ⟨x, hx, r, hr, rfl⟩ := mem_aggregate.1 hin
    have hname : (aggregatedTool x r).aggregatedName = (aggregatedTool u t).aggregatedName := by
      simpa [granting] using hlisted
    exact (h.distinct hx hu hr ht hname).1
  · intro hbuiltin
    obtain ⟨hname, htool⟩ := aggregatedName_lookup.1 hbuiltin
    exact h.lookup v hv hname s hs htool
  · intro hlisted
    have hname : (aggregatedTool v s).aggregatedName = (aggregatedTool u t).aggregatedName := by
      simpa [createMcpGateway, granting] using hlisted
    exact hne (h.distinct hv hu hs ht hname).1.symm

end routing

/-! ## Names that route -/

/-- Over upstreams with distinct names, each with distinct tools, the aggregated names route to the
tools that advertise them if and only if they are unambiguous. -/
theorem routes_as_advertised_iff (cfg : Config) {upstreams : List Upstream}
    (hservers : (upstreams.map Upstream.name).Nodup)
    (htools : ∀ u ∈ upstreams, (u.tools.map UpstreamTool.name).Nodup) :
    RoutesAsAdvertised cfg upstreams ↔ Unambiguous upstreams := by
  constructor
  · intro h
    -- where a text is shared, the two servers would be one, and its name longer than itself
    have hshared : ∀ u ∈ upstreams, ∀ v ∈ upstreams, ∀ t ∈ u.tools, ∀ s ∈ v.tools,
        u.name.length < v.name.length →
        (aggregatedTool u t).aggregatedName ≠ (aggregatedTool v s).aggregatedName := by
      intro u hu v hv t ht s hs hlt hname
      obtain ⟨rfl, -⟩ := h.distinct u hu t ht v hv s hs hname
      exact Nat.lt_irrefl _ hlt
    refine ⟨fun u hu v hv hname t ht s hs htool => ?_,
      fun u hu v hv infixed hname t ht s hs htool => ?_, fun u hu hname t ht htool => ?_⟩
    · refine hshared u hu v hv t ht s hs ?_ ?_
      · rw [hname, String.length_append]
        exact Nat.lt_add_of_pos_right (by decide)
      · rw [aggregatedName_eq_iff, hname, htool]
        simp
    · refine hshared u hu v hv t ht s hs ?_ ?_
      · rw [hname, String.length_append, String.length_append, Nat.add_assoc]
        exact Nat.lt_add_of_pos_right (Nat.add_pos_left (by decide) _)
      · rw [aggregatedName_eq_iff, hname, htool]
        simp
    · exact h.builtin u hu t ht (aggregatedName_lookup.2 ⟨hname, htool⟩)
  · intro h
    refine ⟨fun exposeDeniedTools entry hentry => ?_, fun u hu t ht v hv s hs hname => ?_,
      fun u hu t ht hname => ?_, fun u hu t ht v hv s hs hne => ?_⟩
    · obtain ⟨u, hu, t, ht, rfl⟩ := mem_aggregate.1 (mem_of_visible hentry)
      refine dispatchedTo (fun hbuiltin => ?_) (h.byAggregatedName cfg hu ht)
      obtain ⟨hname, htool⟩ := aggregatedName_lookup.1 hbuiltin
      exact h.lookup u hu hname t ht htool
    · obtain ⟨hserver, htool⟩ := h.distinct hu hv ht hs hname
      obtain rfl : u = v := List.inj_on_of_nodup_map hservers hu hv hserver
      exact ⟨rfl, List.inj_on_of_nodup_map (htools u hu) ht hs htool⟩
    · obtain ⟨hserver, htool⟩ := aggregatedName_lookup.1 hname
      exact h.lookup u hu hserver t ht htool
    · exact h.granted cfg hu hv ht hs hne

/-- Two servers that list the tool `read`. -/
def fileServers : List Upstream :=
  [{ name := "files", listTools := .ok [{ name := "read" }, { name := "write" }] },
    { name := "mail", listTools := .ok [{ name := "read" }] },
    { name := "dead", listTools := .error "connect ECONNREFUSED" }]

/-- Two file servers are called as advertised. -/
theorem file_servers_route : RoutesAsAdvertised .small fileServers := by
  have hends : ∀ v ∈ fileServers, v.name.toList.getLast? ≠ some '_' := by decide +kernel
  have hplain : ∀ v ∈ fileServers, ¬ ['_', '_'] <:+: v.name.toList := by decide +kernel
  have hother : ∀ v ∈ fileServers, v.name ≠ "governance_pending" := by decide +kernel
  refine (routes_as_advertised_iff .small (by decide) (by decide)).2 ⟨?_, ?_, ?_⟩
  · intro u hu v hv hname
    refine absurd ?_ (hends v hv)
    rw [hname, String.toList_append]
    exact List.getLast?_concat
  · intro u hu v hv infixed hname
    refine absurd ?_ (hplain v hv)
    rw [hname, String.toList_append, String.toList_append]
    exact ⟨u.name.toList, infixed.toList, rfl⟩
  · exact fun u hu hname => absurd hname (hother u hu)

/-- A server `a` with the tool `b__c`, and a server `a__b` with the tool `c`. -/
def nestedServers : List Upstream :=
  [{ name := "a", listTools := .ok [{ name := "b__c" }] },
    { name := "a__b", listTools := .ok [{ name := "c" }] }]

/-- The tool of the first server is never called: its name leads to the second. -/
theorem nested_servers_collide : ¬ RoutesAsAdvertised .small nestedServers := by
  intro h
  obtain ⟨hsame, -⟩ := h.distinct _ (List.mem_cons_self ..) _ (List.mem_cons_self ..) _
    (List.mem_cons_of_mem _ (List.mem_cons_self ..)) _ (List.mem_cons_self ..) (by decide)
  exact absurd (congrArg Upstream.name hsame) (by decide)

end NexusClaw.Governance
