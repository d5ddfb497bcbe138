import Kuku.Sync.DeviceSequence
import Kuku.Account.WorkspaceKey
import Kuku.Account.SetupRecovery
import Kuku.Account.SyncState
import Kuku.Knowledge.Lock
import Kuku.Storage.Preservation
import Kuku.Ai.Approval
import Kuku.Editor.Unmount
import Kuku.Markdown.TextSurvives
import Kuku.Desktop.PluginPermissions
import Kuku.Auth.OneTimeTokens
import Kuku.Auth.Accounts
import Kuku.Desktop.SignInState
import Kuku.Auth.Revocation
import Kuku.Search.Incremental
import Kuku.Search.NotLost
import Kuku.Ai.Compaction
import Kuku.Ai.StreamGrammar
import Kuku.Sync.EqualContent
import Kuku.Sync.Scannable
import Kuku.Desktop.Renames
import Kuku.Desktop.MutationReport
import Kuku.Plugins.OnlyActive
import Kuku.Plugins.DependencyOrder
import Kuku.Sync.Blob
import Kuku.Sync.PackContents
import Kuku.Sync.Planner
import Kuku.Sync.RemoteStatus
import Kuku.Sync.Bootstrap
import Kuku.Knowledge.Snippet
import Kuku.Desktop.FileTools
import Kuku.Knowledge.PlannedWrites
import Kuku.Search.SectionPaths
import Kuku.Ai.Endpoint
import Kuku.Search.Suggestions
import Kuku.Search.FullRebuild
import Kuku.Editor.DiffDocument
import Kuku.Server.ClientIP
import Kuku.Auth.Cookies
import Kuku.Search.GraphView
import Kuku.Desktop.TokenExpiry
import Kuku.Search.ChunkWindows
