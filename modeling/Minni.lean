import Minni.Afm.Coverage
import Minni.Afm.ListCoverage
import Minni.Afm.Reduction
import Minni.Daemon.ConsolidationLock
import Minni.Daemon.DedupLaw
import Minni.Daemon.DurableNodeRuns
import Minni.Daemon.ForeignVaultLaw
import Minni.Daemon.GraphCoordinatorLaw
import Minni.Daemon.HandoffFinality
import Minni.Daemon.InboxRemapLaw
import Minni.Daemon.Injection
import Minni.Daemon.PrincipalStamp
import Minni.Daemon.UseLedgerLaw
import Minni.Daemon.VectorIndexRuns
import Minni.Hooks.AgentEnvelopeLaw
import Minni.Hooks.JevHarvestLaw
import Minni.Hooks.LedgerSweepLaw
import Minni.Hooks.RecallGuardLaw
import Minni.Lock.MutualExclusion
import Minni.Lock.ReservationExclusion
import Minni.Recall.CollectingLaw
import Minni.Recall.FaissPersistLaw
import Minni.Recall.FusionLaw
import Minni.Recall.GraphExpansionLaw
import Minni.Recall.RerankLaw
import Minni.Recall.TrieIndexLaw
import Minni.Thread.CursorRefinement
import Minni.Thread.DigestCoverage
import Minni.Thread.ExactlyOnce
import Minni.Thread.LeaseMachine
import Minni.Thread.RelayDelivery
import Minni.Thread.ReplanEvent
import Minni.Thread.StartGateRuns
import Minni.Vault.SnippetLaw
import Minni.Wire.GcLaw
import Minni.Wire.WiredLaw
