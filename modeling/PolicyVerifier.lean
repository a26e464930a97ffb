import PolicyVerifier.Lib.Machine
import PolicyVerifier.Lib.OrderedMap
import PolicyVerifier.Lib.Grouping
import PolicyVerifier.Js.Value
import PolicyVerifier.Core.Errors
import PolicyVerifier.Core.FailureSource
import PolicyVerifier.Core.Types
import PolicyVerifier.Core.RuleEvaluation
import PolicyVerifier.Core.Evaluate
import PolicyVerifier.Core.Reference
import PolicyVerifier.Core.Proofs.EvaluateProofs
import PolicyVerifier.Core.Proofs.ReferenceProofs
import PolicyVerifier.Core.CollectorLimits
import PolicyVerifier.Core.Proofs.FanOutInv
import PolicyVerifier.Core.Proofs.FanOutSteps
import PolicyVerifier.Core.Proofs.FanOutTurns
import PolicyVerifier.Core.Proofs.FanOutProofs
import PolicyVerifier.Core.Proofs.RunCollectorsProofs
import PolicyVerifier.Core.Proofs.LostFanOutProofs
import PolicyVerifier.Core.Pipelines
import PolicyVerifier.Server.DecisionEvent
import PolicyVerifier.Server.Decide
import PolicyVerifier.Server.Proofs.DecideProofs
import PolicyVerifier.Core.Proofs.SignalProofs
import PolicyVerifier.Server.Proofs.CancellationProofs
import PolicyVerifier.Js.Json
import PolicyVerifier.Js.Proofs.JsonProofs
import PolicyVerifier.Cedar.CedarJson
import PolicyVerifier.Cedar.Mapping
import PolicyVerifier.Cedar.Proofs.CanonicalProofs
import PolicyVerifier.Cedar.Proofs.MappingProofs
import PolicyVerifier.Cedar.Proofs.SharedEntityProofs
import PolicyVerifier.Cedar.PolicyRule
import PolicyVerifier.Cedar.Proofs.AnswerTableProofs
import PolicyVerifier.Cedar.Proofs.RequestProofs
import PolicyVerifier.Server.Proofs.AuditProofs
import PolicyVerifier.Core.Proofs.RuleInvocationProofs
import PolicyVerifier.Core.Proofs.RulePhaseProofs
import PolicyVerifier.Cedar.AgentReadBack
import PolicyVerifier.Cedar.Proofs.ReadBackInv
import PolicyVerifier.Cedar.Proofs.ReadBackProofs
import PolicyVerifier.Cedar.PolicySource
import PolicyVerifier.Cedar.HttpEngine
import PolicyVerifier.Cedar.Proofs.HttpEngineProofs
import PolicyVerifier.Server.Config.Secrets
import PolicyVerifier.Server.Config.Hs256Rotation
import PolicyVerifier.Server.KeyResolvers
import PolicyVerifier.Server.Proofs.SecretProofs
import PolicyVerifier.Server.Proofs.RotationProofs
import PolicyVerifier.Server.Config.JwtBlock
import PolicyVerifier.Server.JwtAuthenticator
import PolicyVerifier.Server.Proofs.BoundaryProofs
import PolicyVerifier.Server.Routes.DecisionRequests
import PolicyVerifier.Server.Routes.VerifyBatch
import PolicyVerifier.Server.Proofs.VerifyBatchProofs
import PolicyVerifier.Core.Proofs.FailureProofs
import PolicyVerifier.Server.Proofs.AttributionProofs
import PolicyVerifier.Builtins.DelegationRange
import PolicyVerifier.Core.Proofs.MergeProofs
import PolicyVerifier.Core.Proofs.RestrictingProofs
import PolicyVerifier.Builtins.Proofs.RangeProofs
import PolicyVerifier.Server.Proofs.DelegationProofs
import PolicyVerifier.Server.Proofs.BuiltinDecisionProofs
import PolicyVerifier.Builtins.AttributeMapping
import PolicyVerifier.Builtins.Proofs.RequestContextProofs
import PolicyVerifier.Core.Proofs.MergeLawProofs
import PolicyVerifier.Cedar.Proofs.CycleProofs
import PolicyVerifier.Cedar.Proofs.MergeRolesProofs
import PolicyVerifier.Builtins.DotNotation
import PolicyVerifier.Builtins.ResourceActionRules
import PolicyVerifier.Builtins.Proofs.PermissionProofs
import PolicyVerifier.Builtins.Proofs.DotNotationProofs
import PolicyVerifier.Server.Proofs.RequirementProofs
import PolicyVerifier.Js.NumberText
import PolicyVerifier.Js.Proofs.NumberTextProofs
import PolicyVerifier.Js.Operators
import PolicyVerifier.Js.Arithmetic
import PolicyVerifier.Builtins.LiteralValues
import PolicyVerifier.Builtins.AttrRules
import PolicyVerifier.Builtins.Proofs.AttrRuleProofs
import PolicyVerifier.Builtins.Collectors
import PolicyVerifier.Builtins.Proofs.CollectorProofs
import PolicyVerifier.Cedar.RequestFacts
import PolicyVerifier.Cedar.EngineRegistry
import PolicyVerifier.Cedar.Proofs.EngineRegistryProofs
import PolicyVerifier.Cedar.Proofs.RequestFactsProofs
import PolicyVerifier.Lib.Reservation
import PolicyVerifier.Cedar.Endpoint
import PolicyVerifier.Cedar.HttpLoad
import PolicyVerifier.Cedar.Proofs.HttpLoadProofs
import PolicyVerifier.Js.Proofs.TextProofs
import PolicyVerifier.Cedar.EscapeDebug
import PolicyVerifier.Cedar.Proofs.ErroringPolicyProofs
import PolicyVerifier.Cedar.EntityLiteral
import PolicyVerifier.Cedar.Proofs.EntityLiteralProofs
import PolicyVerifier.Js.TextDecoder
import PolicyVerifier.Cedar.DescribeFailure
import PolicyVerifier.Cedar.AgentSetRead
import PolicyVerifier.Cedar.Proofs.AgentSetReadProofs
import PolicyVerifier.Cedar.Proofs.ScheduleProofs
import PolicyVerifier.Core.Proofs.BoundPoliciesProofs
import PolicyVerifier.Server.Proofs.RotationCheckProofs
import PolicyVerifier.Server.TimeClaims
import PolicyVerifier.Cedar.WasmEngine
import PolicyVerifier.Server.Proofs.ContextProofs
import PolicyVerifier.Server.Proofs.TimeClaimsProofs
import PolicyVerifier.Cedar.Proofs.PolicyNamingProofs
import PolicyVerifier.Lib.Scatter
import PolicyVerifier.Cedar.Proofs.FileOrderProofs
import PolicyVerifier.Lib.Framing
import PolicyVerifier.Js.Proofs.Utf8Proofs
import PolicyVerifier.Cedar.Proofs.RevisionProofs
import PolicyVerifier.Core.KeyReservation
import PolicyVerifier.Core.Proofs.KeyReservationProofs
import PolicyVerifier.Standalone.Shutdown
import PolicyVerifier.Standalone.Proofs.ShutdownProofs
import PolicyVerifier.Cedar.Evaluator
import PolicyVerifier.Cedar.WasmLoad
import PolicyVerifier.Cedar.Proofs.WasmLoadProofs
import PolicyVerifier.Cedar.Proofs.SharedAgentProofs
import PolicyVerifier.Cedar.PolicyPush
import PolicyVerifier.Cedar.Proofs.PolicyPushProofs
import PolicyVerifier.Server.Http.CallerAuth
import PolicyVerifier.Server.Routes.Verify
import PolicyVerifier.Server.App
import PolicyVerifier.Server.Proofs.VerifyProofs
import PolicyVerifier.Server.Proofs.BatchDecisionsProofs
import PolicyVerifier.Server.Proofs.AppProofs
import PolicyVerifier.Server.Proofs.EndpointProofs
import PolicyVerifier.Server.Proofs.CallerAuthProofs
import PolicyVerifier.Server.TokenAuthenticator
import PolicyVerifier.Server.Proofs.TokenAuthenticatorProofs
import PolicyVerifier.Lib.CappedLabels
import PolicyVerifier.Server.Metrics
import PolicyVerifier.Server.Proofs.MetricsProofs
import PolicyVerifier.Core.Registry
import PolicyVerifier.Server.Boot
import PolicyVerifier.Server.Proofs.LoopbackProofs
import PolicyVerifier.Server.Proofs.BootProofs
