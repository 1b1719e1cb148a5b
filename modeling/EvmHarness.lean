import EvmHarness.FileTree.Route
import EvmHarness.Main
import EvmHarness.Proofs.CallReturn
import EvmHarness.Proofs.CodeAttribution
import EvmHarness.Proofs.ColdAccess
import EvmHarness.Proofs.CopyRun
import EvmHarness.Proofs.CoverageMerge
import EvmHarness.Proofs.CoverageRun
import EvmHarness.Proofs.CreationFixUp
import EvmHarness.Proofs.DeployedCode
import EvmHarness.Proofs.ForeignAccount
import EvmHarness.Proofs.FreshStart
import EvmHarness.Proofs.HexRejection
import EvmHarness.Proofs.InBounds
import EvmHarness.Proofs.MemoryGas
import EvmHarness.Proofs.MemoryTape
import EvmHarness.Proofs.NestedFailure
import EvmHarness.Proofs.NestedRun
import EvmHarness.Proofs.ReportedLogs
import EvmHarness.Proofs.SenderCharge
import EvmHarness.Proofs.SettingsRoundTrip
import EvmHarness.Proofs.SignedArithmetic
import EvmHarness.Proofs.StackEffect
import EvmHarness.Proofs.StaticCall
import EvmHarness.Proofs.StorageHistory
import EvmHarness.Proofs.TotalBalance
import EvmHarness.Proofs.Unclassified
import EvmHarness.Proofs.UnknownAccount
