import EPlatform.Runs.Run
import EPlatform.Runs.Interleaving
import EPlatform.Transcripts.Transcript
import EPlatform.Runs.Transaction
import EPlatform.Transcripts.Services
import EPlatform.Catalog.Course
import EPlatform.Catalog.Publication
import EPlatform.Core.WebhookEvent
import EPlatform.Entitlements.Services
import EPlatform.Entitlements.StateMachine
import EPlatform.Transcripts.Callback
import EPlatform.Transcripts.Review
import EPlatform.Lessons.Lesson
import EPlatform.Lessons.OneJob
import EPlatform.Lessons.Reports
import EPlatform.Lessons.Subtitles
import EPlatform.MediaAssets.Provenance
import EPlatform.MediaAssets.Reruns
import EPlatform.Webhooks.Acknowledged
import EPlatform.Entitlements.Resolver
import EPlatform.Entitlements.Reconciliation
import EPlatform.Entitlements.Cancellation
import EPlatform.Learning.Earned
import EPlatform.Learning.Completion
import EPlatform.MediaAssets.Replacement
import EPlatform.MediaAssets.Verified
import EPlatform.Accounts.Registration
import EPlatform.Accounts.Addresses
import EPlatform.Accounts.Admission
import EPlatform.Transcripts.Signature
import EPlatform.Catalog.ReviewTrail
import EPlatform.Catalog.Ownership
import EPlatform.Lessons.PartialEdits
import EPlatform.Entitlements.Subscriptions
import EPlatform.Accounts.RoleChanges
import EPlatform.Learning.Finished
import EPlatform.Transcripts.Captions
import EPlatform.Transcripts.Freshness
import EPlatform.Accounts.SingleUse
import EPlatform.Transcripts.Applied
import EPlatform.MediaAssets.Retrying
import EPlatform.Transcripts.Retrying
import EPlatform.Lessons.Budgets
import EPlatform.Catalog.Durations
import EPlatform.Catalog.Reordering
import EPlatform.Catalog.Related
import EPlatform.Catalog.Filters
import EPlatform.Learning.FirstContact
import EPlatform.Reading.Invisible
import EPlatform.Catalog.Search
import EPlatform.Transcripts.Stuck
import EPlatform.Core.CspReport
import EPlatform.Webhooks.FailClosed
import EPlatform.Lessons.NumberRanges
import EPlatform.MediaAssets.TokenScope
import EPlatform.Core.Redaction
import EPlatform.Graphs.Ancestry
import EPlatform.DependencyAudit.Gate
import EPlatform.Session.LateResponses
import EPlatform.Player.LessonPlayer
import EPlatform.Administration.Grants
import EPlatform.Deployments.Reports
import EPlatform.Core.RequestIds
import EPlatform.Webhooks.Provided
import EPlatform.Accounts.SignedOut
import EPlatform.Catalog.LiveSearch
import EPlatform.Catalog.SearchScreen
