import BkPlatform.Lib.Run
import BkPlatform.Lib.CheckThenAct
import BkPlatform.Lib.Effect
import BkPlatform.Lib.Log
import BkPlatform.Lib.RubyString
import BkPlatform.Portal.Instance
import BkPlatform.Portal.Lifecycle
import BkPlatform.Portal.Statements
import BkPlatform.Portal.Polls
import BkPlatform.Portal.Commands
import BkPlatform.Portal.Binding
import BkPlatform.Portal.Pending
import BkPlatform.Portal.Access
import BkPlatform.Portal.Approve
import BkPlatform.Portal.Destroyed
import BkPlatform.Portal.Starting
import BkPlatform.Portal.Deploying
import BkPlatform.Portal.Sync
import BkPlatform.Portal.References
import BkPlatform.Portal.Console
import BkPlatform.Portal.JobResults
import BkPlatform.Portal.Waiting
import BkPlatform.Portal.Mirrored
import BkPlatform.Portal.Outage
import BkPlatform.Portal.Observed
import BkPlatform.Portal.NotYet
import BkPlatform.Portal.Created
import BkPlatform.Lib.OneTime
import BkPlatform.Lib.Probe
import BkPlatform.Lib.Double
import BkPlatform.Mysql.Hosts
import BkPlatform.Mysql.NodeIds
import BkPlatform.Mysql.Ranges
import BkPlatform.Labrador.Adapter
import BkPlatform.Labrador.App
import BkPlatform.Labrador.Isolation
import BkPlatform.Labrador.DropDb
import BkPlatform.Labrador.Provision
import BkPlatform.Cas.Model
import BkPlatform.Cas.Tickets
import BkPlatform.Cas.Server
import BkPlatform.Cas.Changes
import BkPlatform.Cas.Soundness
import BkPlatform.Cas.Records
import BkPlatform.Cas.ProxyTickets
import BkPlatform.Cas.Logout
import BkPlatform.Cas.SignOut
import BkPlatform.Cas.Books
import BkPlatform.Cas.Burning
import BkPlatform.Cas.Agreement
import BkPlatform.Cas.FallThrough
import BkPlatform.Cas.Lifetime
import BkPlatform.Cas.Replay
import BkPlatform.Lib.Mirror
import BkPlatform.Lib.Overwrite
import BkPlatform.Lib.Numbered
import BkPlatform.Cassandra.Scripts
import BkPlatform.Cassandra.Registry
import BkPlatform.Cas.Authenticators
import BkPlatform.Lib.CheckThenInsert
import BkPlatform.Lib.Parameters
import BkPlatform.Lib.Occurrence
import BkPlatform.Portal.Signature
import BkPlatform.Portal.Names
import BkPlatform.Cas.Cleaning
import BkPlatform.Cas.Redeeming
import BkPlatform.Cas.Parts
import BkPlatform.Cas.PlainServices
import BkPlatform.Cas.Confusion
import BkPlatform.Portal.Refreshed
import BkPlatform.Portal.FailedSync
import BkPlatform.Lib.Sections
import BkPlatform.Lib.LinePattern
import BkPlatform.Lib.Forgetting
import BkPlatform.Lib.Pieces
import BkPlatform.Lib.UriSyntax
import BkPlatform.Lib.Directory
import BkPlatform.Mysql.ConfigFile
import BkPlatform.Mysql.Erasing
import BkPlatform.Mysql.Suggestion
import BkPlatform.Mysql.ScaleDown
import BkPlatform.Mysql.Monitoring
import BkPlatform.Cas.Cleanup
import BkPlatform.Cas.TicketUri
import BkPlatform.Cas.StaticFiles
import BkPlatform.Lib.LineRange
import BkPlatform.Mysql.Haproxy
import BkPlatform.Mysql.Nodegroups
import BkPlatform.Mysql.DataPairs
import BkPlatform.Lib.Selection
import BkPlatform.Labrador.Rows
import BkPlatform.Lib.Pages
import BkPlatform.Labrador.Paging
import BkPlatform.Labrador.Keyspaces
import BkPlatform.Lib.SqlLiteral
import BkPlatform.Labrador.Postgres
import BkPlatform.Labrador.Ids
import BkPlatform.Labrador.Reachable
import BkPlatform.Lib.LastWriter
import BkPlatform.Labrador.SessionStore
import BkPlatform.Labrador.Connecting
import BkPlatform.Labrador.CreateTable
import BkPlatform.Lib.Delimited
import BkPlatform.Labrador.TableForm
import BkPlatform.Labrador.TableStatement
import BkPlatform.Labrador.Browsing
import BkPlatform.Lib.CharReference
import BkPlatform.Lib.HtmlTags
import BkPlatform.Labrador.TableView
import BkPlatform.Mysql.SqlBlocks
import BkPlatform.Lib.Decimal
import BkPlatform.Mysql.NaturalKeys
import BkPlatform.Lib.Xml
import BkPlatform.Cas.Answers
import BkPlatform.Cas.Attributes
import BkPlatform.Lib.Settings
import BkPlatform.Mysql.Configured
import BkPlatform.Mysql.Scaling
import BkPlatform.Cassandra.Resetting
import BkPlatform.Lib.SqlStatement
import BkPlatform.Labrador.Statements
import BkPlatform.Lib.Account
import BkPlatform.Portal.Accepted
import BkPlatform.Labrador.Editing
