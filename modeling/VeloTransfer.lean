import VeloTransfer.HostPublicationRecoveryProofs
import VeloTransfer.FlowReportRunProofs
import VeloTransfer.TaskStoreHistoryProofs
import VeloTransfer.GuestRecoveryProofs
import VeloTransfer.HostRecoveryProofs
import VeloTransfer.TerminalSnapshotProofs
import VeloTransfer.ManifestEvidenceProofs
import VeloTransfer.PushLedgerProofs
import VeloTransfer.GuestConcurrencyProofs
import VeloTransfer.GuestCancellationProofs
import VeloTransfer.BootInstallProofs
import VeloTransfer.FlowResumeProofs
import VeloTransfer.StartHuntProofs
import VeloTransfer.BinaryChannelProofs
import VeloTransfer.JsonHeapProofs
import VeloTransfer.RawRecordsProofs
import VeloTransfer.ManifestAgreementProofs
import VeloTransfer.ZipPrecheckProofs
import VeloTransfer.ObservationScopeProofs
import VeloTransfer.AttemptLedgerLawsProofs
import VeloTransfer.ExecStartProofs
import VeloTransfer.UploadInventoryProofs
import VeloTransfer.RequestSourcesProofs
import VeloTransfer.HostPullProofs
import VeloTransfer.QueryParametersProofs
import VeloTransfer.DownloadCallProofs
import VeloTransfer.ControlCallProofs
