import Nxfr.ReceiverFacts
import Nxfr.ResumePair
import Nxfr.MobilePair
import Nxfr.Consent
import Nxfr.Ownership
import Nxfr.PairingFacts
import Nxfr.FfiPairing
import Nxfr.FramingFacts
import Nxfr.UnknownKeys
import Nxfr.Ambiguity
import Nxfr.TimerDiscipline
import Nxfr.SessionPair
import Nxfr.TransferPair
import Nxfr.MessageIds
import Nxfr.PathJail
import Nxfr.MobileAtomicity
import Nxfr.OfferDelivery
import Nxfr.ReceivingFacts
import Nxfr.SharedPartFacts
import Nxfr.TransferHistory
import Nxfr.EntryNames
import Nxfr.UploadHeaders
import Nxfr.RangeServing
import Nxfr.UploadRaces
import Nxfr.UploadRequest
import Nxfr.SequentialFailures
import Nxfr.DownloadQuota
import Nxfr.ApprovalGate
import Nxfr.SenderSums
import Nxfr.SenderControl
import Nxfr.ModifiedFile
import Nxfr.Handshake
import Nxfr.JournalFiles
import Nxfr.TargetLookup
import Nxfr.LinkedScan
import Nxfr.SasCode
import Nxfr.Nesting
import Nxfr.IdentityFiles
import Nxfr.DeviceMerge
import Nxfr.QrTicket
import Nxfr.AddressParser
import Nxfr.BeaconExpiry
import Nxfr.FilePublisher
import Nxfr.DesertTiers
import Nxfr.Staging
import Nxfr.CacheCleaner
import Nxfr.DesertRuns
import Nxfr.Publications
import Nxfr.Recency
import Nxfr.RecentNodes
import Nxfr.Selection
import Nxfr.WireDelivery
import Nxfr.RangeParts
import Nxfr.WebExpiry
