import UpfPolicy.Domain.Address
import UpfPolicy.Domain.Rules
import UpfPolicy.Domain.Decision
import UpfPolicy.Domain.Matcher
import UpfPolicy.Domain.AddressTheorems
import UpfPolicy.Domain.Engine
import UpfPolicy.Application.PacketPipeline
import UpfPolicy.Domain.EngineTheorems
import UpfPolicy.Domain.ValidationTheorems
import UpfPolicy.Support.Runs
import UpfPolicy.Application.ProcessTheorems
import UpfPolicy.Application.CommitTheorems
import UpfPolicy.Application.QosTheorems
import UpfPolicy.Application.RateLimitTheorems
import UpfPolicy.Application.UsageTheorems
import UpfPolicy.Application.ReportTheorems
import UpfPolicy.Application.OrderTheorems
import UpfPolicy.Application.RuleService
import UpfPolicy.Application.RuleServiceTheorems
import UpfPolicy.Application.VersionTheorems
import UpfPolicy.Application.Verdict
import UpfPolicy.Application.VerdictTheorems
import UpfPolicy.Application.DeliveryTheorems
import UpfPolicy.Application.ForwardingTheorems
import UpfPolicy.Application.ObservationTheorems
import UpfPolicy.Application.ArithmeticTheorems
import UpfPolicy.Application.PdrChangeTheorems
import UpfPolicy.Application.IdleRuleTheorems
import UpfPolicy.Application.RenumberTheorems
import UpfPolicy.Application.CapacityTheorems
import UpfPolicy.Application.CommuteTheorems
import UpfPolicy.Application.IsolationTheorems
import UpfPolicy.Application.AccountingTheorems
import UpfPolicy.Application.LedgerTheorems
import UpfPolicy.Application.RedundancyTheorems
import UpfPolicy.Application.MigrationTheorems
import UpfPolicy.Support.Queue
import UpfPolicy.Application.Scheduler
import UpfPolicy.Application.SchedulerTheorems
import UpfPolicy.Application.ShutdownTheorems
import UpfPolicy.Application.Reconciliation
import UpfPolicy.Application.ReconciliationTheorems
import UpfPolicy.Support.Json
import UpfPolicy.Domain.AddressText
import UpfPolicy.Domain.AddressTextTheorems
import UpfPolicy.Application.ScenarioRunner
import UpfPolicy.Adapters.JsonInput
import UpfPolicy.Adapters.JsonOutput
import UpfPolicy.Adapters.UsageReportTheorems
import UpfPolicy.Support.Words
import UpfPolicy.Domain.QerTheorems
import UpfPolicy.Application.OverlapTheorems
import UpfPolicy.Application.DeadRuleTheorems
import UpfPolicy.Application.ExplanationTheorems
import UpfPolicy.Adapters.SimulatedDataplane
import UpfPolicy.Adapters.SimulatedDataplaneTheorems
import UpfPolicy.Application.InterleavingTheorems
import UpfPolicy.Application.RetryTheorems
import UpfPolicy.Adapters.SimulatedRetryTheorems
import UpfPolicy.Adapters.Deployment
import UpfPolicy.Support.Reads
import UpfPolicy.Support.JsonSchema
import UpfPolicy.Adapters.DecodingTheorems
import UpfPolicy.Adapters.PacketRoundTrip
import UpfPolicy.Adapters.FileRunTheorems
import UpfPolicy.Adapters.Contracts
import UpfPolicy.Adapters.ContractTheorems
import UpfPolicy.Adapters.DecisionTheorems
import UpfPolicy.Adapters.ResultTheorems
import UpfPolicy.Adapters.DocumentTheorems
import UpfPolicy.Adapters.IntakeTheorems
import UpfPolicy.Adapters.Sinks
import UpfPolicy.Adapters.HumanOutput
import UpfPolicy.Adapters.OutputTheorems
import UpfPolicy.Application.ScenarioRunnerTheorems
import UpfPolicy.Cli.Main
import UpfPolicy.Cli.MainTheorems
