import TiramisuAgents.Actions.Ambiguity
import TiramisuAgents.Actions.Boundary
import TiramisuAgents.Actions.Conflicts
import TiramisuAgents.Actions.Deadlocks
import TiramisuAgents.Actions.GatewayReplay
import TiramisuAgents.Actions.Settlement
import TiramisuAgents.Adapters.Bookings
import TiramisuAgents.Budgets.Accounting
import TiramisuAgents.Budgets.Checks
import TiramisuAgents.Budgets.Overshoot
import TiramisuAgents.Budgets.Summaries
import TiramisuAgents.Communications.NextAllowed
import TiramisuAgents.Communications.Rates
import TiramisuAgents.Communications.Reservations
import TiramisuAgents.Core.CompletionValues
import TiramisuAgents.Core.Definitions
import TiramisuAgents.Core.Policy
import TiramisuAgents.Core.Storage
import TiramisuAgents.Events.Locks
import TiramisuAgents.Events.Ownership
import TiramisuAgents.Library.Coroutine
import TiramisuAgents.Library.Inbox
import TiramisuAgents.Library.Transactions
import TiramisuAgents.Mailbox.Chains
import TiramisuAgents.Mailbox.Closure
import TiramisuAgents.Mailbox.Continuation
import TiramisuAgents.Mailbox.Lineage
import TiramisuAgents.Mailbox.Orphans
import TiramisuAgents.Mailbox.Preemption
import TiramisuAgents.Mailbox.Progress
import TiramisuAgents.Mailbox.Results
import TiramisuAgents.Mailbox.Rollover
import TiramisuAgents.Mailbox.Survival
import TiramisuAgents.Mailbox.Waiting
import TiramisuAgents.Operators.Once
import TiramisuAgents.Processes.AppliedOnce
import TiramisuAgents.Processes.Completion
import TiramisuAgents.Processes.Controls
import TiramisuAgents.Processes.Integrity
import TiramisuAgents.Processes.ReviewFence
import TiramisuAgents.Projects.Rails
import TiramisuAgents.Security.Access
import TiramisuAgents.Temporal.Draining
import TiramisuAgents.Tenancy.Moves
import TiramisuAgents.Tenancy.Signals
import TiramisuAgents.Testkit.AdapterContracts
import TiramisuAgents.Testkit.FactSteps
import TiramisuAgents.Testkit.Provenance
import TiramisuAgents.Testkit.References
import TiramisuAgents.Testkit.Runnable
