import Gannet.Lib.Run
import Gannet.Lib.CompareExchange
import Gannet.Lib.Loop
import Gannet.Lib.KeyMap
import Gannet.Lib.Text
import Gannet.Lib.Bytes
import Gannet.Lib.Utf8
import Gannet.Lib.CaseMapping
import Gannet.Lib.Http
import Gannet.Lib.SharedCell
import Gannet.Lib.TaskPool
import Gannet.Lib.Parsing
import Gannet.Lib.JsonReader
import Gannet.Lib.Machine
import Gannet.Net.Addr
import Gannet.Net.Subnet
import Gannet.Net.Interface
import Gannet.Net.Selection
import Gannet.Net.Packet
import Gannet.Lib.Checksum
import Gannet.Net.PacketWriter
import Gannet.Identity.Device
import Gannet.Identity.Namer
import Gannet.Identity.Store
import Gannet.Identity.Classify
import Gannet.Identity.Fallback
import Gannet.Identity.Merging
import Gannet.Identity.Sighting
import Gannet.Identity.StoreSteps
import Gannet.Identity.StoreInvariant
import Gannet.Identity.Resolution
import Gannet.Identity.History
import Gannet.Identity.Promotion
import Gannet.Identity.Repetition
import Gannet.Identity.Tagging
import Gannet.Identity.StoreFile
import Gannet.Identity.StoreJson
import Gannet.Identity.StoreProcesses
import Gannet.Identity.StoreText
import Gannet.Identity.StoreCodec
import Gannet.Identity.StoreDisk
import Gannet.Discovery.Label
import Gannet.Discovery.LabelBounds
import Gannet.Discovery.MdnsServices
import Gannet.Discovery.MdnsRecords
import Gannet.Discovery.Hostnames
import Gannet.Discovery.RecordTargets
import Gannet.Discovery.MdnsSafety
import Gannet.Discovery.DnsMessage
import Gannet.Discovery.MdnsRoundTrip
import Gannet.Discovery.ScanServices
import Gannet.Discovery.ServiceLists
import Gannet.Discovery.Targets
import Gannet.Discovery.Blocks
import Gannet.Discovery.HostCount
import Gannet.Discovery.Survey
import Gannet.Discovery.SweepTasks
import Gannet.Discovery.ArpExchange
import Gannet.Discovery.Liveness
import Gannet.Discovery.Verbosity
import Gannet.Discovery.Adjacent
import Gannet.Discovery.Gateways
import Gannet.Discovery.Upnp
import Gannet.Discovery.Ssdp
import Gannet.Discovery.UpnpRequest
import Gannet.Discovery.Candidates
import Gannet.Identity.ScanOrder
import Gannet.Discovery.Fingerprint
import Gannet.Discovery.TcpProbe
import Gannet.Discovery.TcpOptions
import Gannet.Discovery.TcpRoundTrip
import Gannet.Discovery.ProbePackets
import Gannet.Discovery.Producers
import Gannet.Discovery.Listener
import Gannet.Discovery.ListenIdentity
import Gannet.Discovery.ListenQueues
import Gannet.Discovery.ListenServices
import Gannet.Discovery.ListenArpTable
import Gannet.Discovery.ListenModes
import Gannet.Discovery.Queries
import Gannet.Discovery.HostnameChoice
import Gannet.Discovery.ProbePorts
import Gannet.Lib.Ranking
import Gannet.Discovery.OsGuess
import Gannet.Discovery.Enrichment
import Gannet.Discovery.BulkResults
import Gannet.Cli.SharedFile
import Gannet.Cli.Commands
import Gannet.Cli.OneProcess
import Gannet.Cli.Report
import Gannet.Cli.Tags
import Gannet.Cli.DefaultScan
import Gannet.Cli.OsHints
import Gannet.Discovery.SurveyRun
