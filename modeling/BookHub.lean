import BookHub.BookService.DualWrite
import BookHub.BookService.EventOrder
import BookHub.ReviewService.Books
import BookHub.ReviewService.Writers
import BookHub.ReviewService.Sync
import BookHub.ReviewService.Ownership
import BookHub.BookService.Announced
import BookHub.Replication.Resurrection
import BookHub.Replication.StartUp
import BookHub.Base.JsValue
import BookHub.UserService.Handlers
import BookHub.UserService.Issued
import BookHub.UserService.Roles
import BookHub.UserService.OwnRow
import BookHub.UserService.Passwords
import BookHub.ReviewService.Creation
import BookHub.Base.DateTime
import BookHub.Replication.EventPath
import BookHub.HealthMonitor.Heartbeats
import BookHub.HealthMonitor.Steps
import BookHub.HealthMonitor.Recalculation
import BookHub.HealthMonitor.Reference
import BookHub.HealthMonitor.Timestamps
import BookHub.HealthMonitor.LostUpdate
import BookHub.Auth.Authorization
import BookHub.ReviewService.Consumer
import BookHub.Auth.Separation
import BookHub.Auth.Deployment
import BookHub.Auth.KeyCache
import BookHub.ReviewService.Recovery
import BookHub.ReviewService.Retry
import BookHub.ReviewService.SyncResponses
import BookHub.BookService.HeartbeatPublisher
import BookHub.Auth.Escapes
import BookHub.HealthMonitor.Signers
import BookHub.Base.PosixPath
import BookHub.MediaService.Avatars
import BookHub.MediaService.Isolation
import BookHub.MediaService.Retrievable
import BookHub.Base.Mirror
import BookHub.UserService.Hashes
import BookHub.UserService.Secrecy
import BookHub.UserService.Credentials
import BookHub.Auth.Login
import BookHub.Auth.RegisteredLogin
import BookHub.Base.Uri
import BookHub.ApiGateway.Routing
import BookHub.ApiGateway.Internal
import BookHub.HealthMonitor.FailedFetch
import BookHub.HealthMonitor.Plug
import BookHub.Base.Jason
import BookHub.HealthMonitor.Report
import BookHub.MediaService.Uploads
import BookHub.MediaService.RoundTrip
import BookHub.Base.Utf8
import BookHub.ApiGateway.Bodies
import BookHub.ApiGateway.Boundaries
import BookHub.ApiGateway.Forms
import BookHub.ApiGateway.Responses
import BookHub.ApiGateway.Targets
import BookHub.HealthMonitor.AfterConnect
import BookHub.ReviewService.HealthPublisher
import BookHub.UserService.BrokerConnection
import BookHub.Auth.HeartbeatService
import BookHub.Base.Calendar
import BookHub.Base.Supervisor
import BookHub.HealthMonitor.Members
import BookHub.HealthMonitor.Supervision
import BookHub.ApiGateway.Pipeline
import BookHub.Replication.Wire
import BookHub.Auth.PublishedKeys
import BookHub.Platform
import BookHub.HealthMonitor.Dashboard
import BookHub.ReviewService.Listing
import BookHub.UserService.AdminUsers
