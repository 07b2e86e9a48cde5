import ZsecShield.Browser.AddedBookmark
import ZsecShield.Browser.BookmarkRoundTrip
import ZsecShield.Browser.History
import ZsecShield.Browser.ImportEveryVault
import ZsecShield.Browser.LoadAfterSave
import ZsecShield.Browser.Parity
import ZsecShield.Browser.PasswordGenerator
import ZsecShield.Browser.SaveBound
import ZsecShield.Browser.SaveDecision
import ZsecShield.Browser.Vault
import ZsecShield.Browser.VaultBinding
import ZsecShield.Browser.VaultRecords
import ZsecShield.Desktop.Guarantees
import ZsecShield.Desktop.WatchStream
import ZsecShield.Feed.Reinspect
import ZsecShield.Intelligence.Accepted
import ZsecShield.Lib.Antichain
import ZsecShield.Lib.Posix
import ZsecShield.Lib.Promise
import ZsecShield.Lib.Window
import ZsecShield.Quarantine.Listing
import ZsecShield.Scan.Content
import ZsecShield.Scan.Deduplicate
import ZsecShield.Scan.Exact
import ZsecShield.Scan.HonestWorker
import ZsecShield.Scan.PeReads
import ZsecShield.Scan.SecondLook
import ZsecShield.Shields.Canonical
import ZsecShield.Shields.DynamicRules
import ZsecShield.Shields.Messages
import ZsecShield.Status.Truthful
import ZsecShield.Updates.Converge
import ZsecShield.Updates.Installed
import ZsecShield.Updates.Intelligence
import ZsecShield.Updates.LastKnownGood
import ZsecShield.Updates.Reuse
import ZsecShield.Watch.Conservation
import ZsecShield.Watch.Deadline
import ZsecShield.Watch.Drain
import ZsecShield.Watch.EventLog
import ZsecShield.Watch.Fairness
import ZsecShield.Watch.FlagDiscipline
import ZsecShield.Watch.Idle
import ZsecShield.Watch.PersistedHealth
import ZsecShield.Watch.Retry
import ZsecShield.Watch.Roots
import ZsecShield.Watch.Summary
import ZsecShield.Browser.BookmarkHtml
import ZsecShield.Browser.BookmarkReached
import ZsecShield.Browser.BookmarkScan
