import Boat.ReadCommitted.System
import Boat.Core.Domain
import Boat.Credits.Domain
import Boat.ReadCommitted.Logic
import Boat.Promotions.Domain
import Boat.Database
import Boat.Credits.UseCases
import Boat.Credits.Spec
import Boat.Promotions.UseCases
import Boat.Promotions.Spec
import Boat.Core.Date
import Boat.Ocr.Domain
import Boat.Ocr.UseCases
import Boat.Ocr.Provider
import Boat.Ocr.Spec
import Boat.Requests
import Boat.Bystanders
import Boat.Ledger
import Boat.Grants
import Boat.Ocr.Charge
import Boat.Limits
import Boat.Redemptions
import Boat.Idempotency
import Boat.Outbox.Workers
import Boat.Outbox.Invariant
import Boat.Outbox.Delivery
import Boat.Outbox.Fencing
import Boat.Outbox.Retries
import Boat.Notifications.Values
import Boat.Text.Replace
import Boat.Notifications.Due
import Boat.Notifications.Rendering
import Boat.Notifications.Cutoffs
import Boat.Notifications.Candidates
import Boat.Notifications.CandidatesSpec
import Boat.Notifications.Scheduler
import Boat.Notifications.Runs
import Boat.Notifications.Commits
import Boat.Notifications.CommitsSpec
import Boat.Notifications.Consent
import Boat.Notifications.Occurrences
import Boat.Text.Strip
import Boat.Text.Split
import Boat.Text.Digits
import Boat.Json.Text
import Boat.Json.Compact
import Boat.Json.Loads
import Boat.Text.Like
import Boat.Text.Base64
import Boat.Core.DateTime
import Boat.Core.Calendar
import Boat.Core.Months
import Boat.Core.IsoFormat
import Boat.Core.UuidText
import Boat.Core.TimeCursor
import Boat.Credits.Transactions
import Boat.Events.Registry
import Boat.Events.Serialization
import Boat.Events.Classes
import Boat.Events.RoundTrip
import Boat.Events.Publisher
import Boat.Events.Defaults
import Boat.Auth.Database
import Boat.ReadCommitted.Part
import Boat.ReadCommitted.Alone
import Boat.ReadCommitted.Serial
import Boat.ReadCommitted.External
import Boat.ReadCommitted.Checks
import Boat.Credits.Alone
import Boat.Promotions.Alone
import Boat.Promotions.Months
import Boat.Promotions.Monthly
import Boat.Promotions.MonthlySpec
import Boat.Auth.UseCases
import Boat.Auth.Alone
import Boat.Notifications.Database
import Boat.Notifications.Listing
import Boat.App.Listings
import Boat.Users.Database
import Boat.Users.UseCases
import Boat.Notifications.UseCases
import Boat.ReadCommitted.Moves
import Boat.Notifications.PushCleanup
import Boat.Notifications.PushCleanupSpec
import Boat.App.Database
import Boat.App.Withdrawal
import Boat.Auth.Sessions
import Boat.Auth.SessionsSpec
import Boat.App.Sessions
import Boat.Auth.Logouts
import Boat.App.Logouts
import Boat.ReadCommitted.Passed
import Boat.App.WithdrawalSpec
import Boat.Receipts.Values
import Boat.Receipts.Domain
import Boat.Receipts.FromOcr
import Boat.Ocr.Classification
import Boat.Receipts.Database
import Boat.Receipts.UseCases
import Boat.Receipts.Alone
import Boat.Receipts.Patch
import Boat.Receipts.Creation
import Boat.Receipts.Updates
import Boat.Receipts.Listing
import Boat.Receipts.ListingSpec
import Boat.Receipts.Cursors
import Boat.Receipts.Decoding
import Boat.Receipts.Expiry
import Boat.Files.Domain
import Boat.Files.Database
import Boat.Files.UseCases
import Boat.Files.Contents
import Boat.Files.Uploads
import Boat.Files.Sniffing
import Boat.Files.LocalStorageSpec
import Boat.Files.ProfileImages
import Boat.FileTree.Tree
import Boat.FileTree.Disk
import Boat.Files.LocalStorage
import Boat.ReadCommitted.Lifted
import Boat.ReadCommitted.Progress
import Boat.Promotions.SignupRedemption
import Boat.App.Signup
import Boat.App.SignupSpec
import Boat.App.Accounts
import Boat.App.LockOrder
import Boat.ReadCommitted.Ends
import Boat.Auth.Identity
import Boat.App.Responses
import Boat.App.Refusals
import Boat.App.Endpoints
import Boat.ReadCommitted.OneByOne
import Boat.Receipts.Requests
import Boat.Receipts.Shelf
import Boat.Receipts.Copies
import Boat.Files.Cabinet
