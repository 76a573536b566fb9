import AgentBridge.Providers.Capacity
import AgentBridge.Providers.Resume
import AgentBridge.Integration.IgnoredGroups
import AgentBridge.Integration.SingleUse
import AgentBridge.Pipelines.Merge
import AgentBridge.Pipelines.SourceCleanup
import AgentBridge.Queue.ClaimExclusive
import AgentBridge.Queue.StaleReconcile
import AgentBridge.Queue.Rebase
import AgentBridge.Workers.Presence
import AgentBridge.Worktrees.Ownership
import AgentBridge.Worktrees.Capacity
import AgentBridge.Worktrees.GarbageSound
import AgentBridge.Queue.Activation
import AgentBridge.Attestations.Soundness
import AgentBridge.Integration.Deposed
import AgentBridge.Cleanup.Convergence
import AgentBridge.Globs.Admission
import AgentBridge.Locks.ConsistentRuns
import AgentBridge.Containment.ReclaimSound
import AgentBridge.Supervision.Contained
import AgentBridge.Results.Summaries
import AgentBridge.Queue.RequeueKeys
import AgentBridge.Queue.RetryChains
import AgentBridge.Integration.Composite
import AgentBridge.Patches.Entries
import AgentBridge.Parallel.Scope
import AgentBridge.Integration.IndexBatches
import AgentBridge.Locks.FailedAcquire
import AgentBridge.Journal.OwnedRollback
import AgentBridge.Pipelines.ReadBack
import AgentBridge.Queue.GroupTurns
import AgentBridge.Queue.CommitExact
import AgentBridge.Journal.LineEndings
import AgentBridge.State.KeyUnique
import AgentBridge.Queue.Starvation
import AgentBridge.Release.ClaudeEntry
import AgentBridge.Release.PluginTree
import AgentBridge.Validation.Display
import AgentBridge.Supervision.AfterExit
import AgentBridge.Supervision.Output
