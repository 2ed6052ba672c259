import NexusClaw.Governance.ApprovalRaces
import NexusClaw.Governance.Completion
import NexusClaw.Governance.Resumption
import NexusClaw.Governance.UpstreamCalls
import NexusClaw.Governance.DenyByDefault
import NexusClaw.Governance.TerminalStates
import NexusClaw.Governance.TerminalEvents
import NexusClaw.Governance.Decisions
import NexusClaw.Governance.ResumedCall
import NexusClaw.Governance.OtelExporter
import NexusClaw.Governance.ToolNameRules
import NexusClaw.Governance.GateAgreement
import NexusClaw.Governance.PausedCall
import NexusClaw.Governance.StepBudget
import NexusClaw.Governance.Transcript
import NexusClaw.Governance.LoopSteps
import NexusClaw.AgentRuntime.Entities
import NexusClaw.AgentRuntime.Store
import NexusClaw.AgentRuntime.Gates
import NexusClaw.AgentRuntime.ToolRegistry
import NexusClaw.AgentRuntime.ModelReply
import NexusClaw.AgentRuntime.ReActLoop
import NexusClaw.AgentRuntime.Executor
import NexusClaw.Community.Resolver
import NexusClaw.AgentRuntime.Rules
import NexusClaw.AgentRuntime.Closing
import NexusClaw.AgentRuntime.Release
import NexusClaw.AgentRuntime.Grants
import NexusClaw.AgentRuntime.Retries
import NexusClaw.AgentRuntime.Footprint
import NexusClaw.Community.Authority
import NexusClaw.Community.AgentConfig
import NexusClaw.AgentRuntime.Passes
import NexusClaw.AgentRuntime.Tokens
import NexusClaw.AgentRuntime.Accounts
import NexusClaw.Community.SessionLimits
import NexusClaw.Governance.Approvers
import NexusClaw.Governance.Aggregation
import NexusClaw.Governance.Closeout
import NexusClaw.AuditChain.Canonical
import NexusClaw.AuditChain.CanonicalText
import NexusClaw.AuditChain.Preview
import NexusClaw.Community.ByoLlm
import NexusClaw.Community.Playground
import NexusClaw.Community.Recycling
import NexusClaw.MetadataRuntime.Apply
import NexusClaw.AuditChain.StaticBinding
import NexusClaw.Governance.RuleReading
import NexusClaw.Governance.RuleMatching
import NexusClaw.Governance.RiskMaximum
import NexusClaw.Permission.AllowList
import NexusClaw.Permission.DataScope
import NexusClaw.Permission.FieldMasking
import NexusClaw.Governor.GovernorLimit
import NexusClaw.AuditChain.PointerTargets
import NexusClaw.AgentRuntime.StaticOutcomes
import NexusClaw.AgentRuntime.StepAudit
import NexusClaw.Community.Insights
import NexusClaw.Community.SensitiveOps
import NexusClaw.AgentRuntime.PromptBudget
import NexusClaw.AgentRuntime.PromptFence
import NexusClaw.MetadataRuntime.FilePaths
import NexusClaw.MetadataRuntime.SourceLayouts
import NexusClaw.MetadataRuntime.OrderFree
import NexusClaw.Shared.MarkdownSectioning
import NexusClaw.AgentRuntime.ReplyParsing
import NexusClaw.Governance.PythonClient
import NexusClaw.AgentRuntime.ToolRegistration
import NexusClaw.AuditChain.ValueGraph
import NexusClaw.Shared.PageSourceFile
import NexusClaw.Shared.JsonUnits
import NexusClaw.AgentRuntime.ProjectionFeedback
import NexusClaw.AuditChain.ScrubbedPayloads
import NexusClaw.AgentRuntime.PromptCropping
import NexusClaw.Community.DemoSeed
import NexusClaw.Governance.DshPlugin
import NexusClaw.Governance.RuleCache
import NexusClaw.Governance.TransactionalOutbox
import NexusClaw.AgentRuntime.AuthorisedActions
import NexusClaw.Community.Isolation
import NexusClaw.Community.AgentLookups
import NexusClaw.Community.PlaygroundSeed
import NexusClaw.Community.PlaygroundPolicy
