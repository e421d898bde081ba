import HiChecker.TransitionProofs
import HiChecker.LeakRoundProofs
import HiChecker.SnapshotHashProofs
import HiChecker.DumpIdentityProofs
import HiChecker.CautionProofs
import HiChecker.RuleBindingProofs
import HiChecker.LifecycleProofs
import HiChecker.ConfigAtomicProofs
import HiChecker.TimerChainProofs
import HiChecker.StartupParamProofs
import HiChecker.RepeatedDumpProofs
import HiChecker.RestartProofs
import HiChecker.BalanceProofs
import HiChecker.CallbackRefProofs
import HiChecker.LeakAgreementProofs
import HiChecker.ForeignFilesProofs
import HiChecker.ConcurrentDumpProofs
import HiChecker.OneDumpProofs
import HiChecker.RetentionProofs
import HiChecker.DeliveredProofs
import HiChecker.AppendMetaDataProofs
import HiChecker.StrictParamProofs
import HiChecker.NotifyCautionProofs
import HiChecker.DelayBoundsProofs
import HiChecker.CompletionProofs
import HiChecker.ExclusionProofs
import HiChecker.CollectedTargetProofs
import HiChecker.HeapHashProofs
import HiChecker.RuleRoundTripProofs
import HiChecker.SetEqualityProofs
import HiChecker.NotifyAtomicProofs
import HiChecker.RuleOrderProofs
import HiChecker.RegistrationHistoryProofs
import HiChecker.EarlyInitProofs
import HiChecker.ThreadsafeFunctionProofs
import HiChecker.FrontEndsProofs
import HiChecker.JsonRoundTripProofs
