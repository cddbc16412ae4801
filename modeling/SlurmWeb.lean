import SlurmWeb.Permission.FrontendAgrees
import SlurmWeb.Assistant.Agreement
import SlurmWeb.Chat.StreamChat
import SlurmWeb.Jobs.Independence
import SlurmWeb.Jobs.Writer
import SlurmWeb.Slurmrestd.SelfScope
import SlurmWeb.Slurmrestd.PartitionCounts
import SlurmWeb.Analysis.PartitionPressure
import SlurmWeb.Slurmrestd.Cache
import SlurmWeb.Assistant.ModelValidation
import SlurmWeb.Analytics.DailyStats
import SlurmWeb.Permission.Monotone
import SlurmWeb.Permission.RoleMigration
import SlurmWeb.Users.UserCache
import SlurmWeb.Jobs.History
import SlurmWeb.Slurmrestd.CacheCounters
import SlurmWeb.Frontend.DataPoller
import SlurmWeb.Analysis.WaitStats
import SlurmWeb.Ldap.Lookup
import SlurmWeb.Metrics.Quoting
import SlurmWeb.Metrics.HotspotStore
import SlurmWeb.Metrics.Collector
import SlurmWeb.Analytics.Conservation
import SlurmWeb.Analytics.ToolNames
import SlurmWeb.Analytics.RollupAccuracy
import SlurmWeb.Analytics.Timelines
import SlurmWeb.Jobs.FlushTable
import SlurmWeb.Frontend.ExitCode
import SlurmWeb.Slurmrestd.ExitCodeAdapter
import SlurmWeb.Slurmrestd.Adapters
import SlurmWeb.Slurmrestd.Discovery
import SlurmWeb.Slurmrestd.NodeJobs
import SlurmWeb.Frontend.DataGetter
import SlurmWeb.Frontend.ClusterHistory
import SlurmWeb.Frontend.JobFilters
import SlurmWeb.Frontend.Nodeset
import SlurmWeb.Frontend.Gres
import SlurmWeb.Slurmrestd.ResourceStates
import SlurmWeb.Frontend.JobOrder
import SlurmWeb.Frontend.Router
import SlurmWeb.Permission.RoleStore
import SlurmWeb.Chat.Conversations
import SlurmWeb.Chat.Transport
import SlurmWeb.Chat.Providers
import SlurmWeb.Frontend.AssistantView
import SlurmWeb.Frontend.UrlState
import SlurmWeb.Gateway.Agents
import SlurmWeb.Slurmrestd.Auth
import SlurmWeb.Frontend.Dashboard
import SlurmWeb.Jobs.Usage
import SlurmWeb.Slurmrestd.Normalise
import SlurmWeb.Assistant.Renormalise
import SlurmWeb.Assistant.EmptyUpdate
