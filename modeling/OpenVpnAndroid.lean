import OpenVpnAndroid.JavaText
import OpenVpnAndroid.ParseLine
import OpenVpnAndroid.EscapeRoundTrip
import OpenVpnAndroid.ParseLinePort
import OpenVpnAndroid.DeviceState
import OpenVpnAndroid.HoldRelease
import OpenVpnAndroid.HoldAnswer
import OpenVpnAndroid.StatusRefresh
import OpenVpnAndroid.LostNetwork
import OpenVpnAndroid.TrafficWindow
import OpenVpnAndroid.ActiveThreads
import OpenVpnAndroid.ProfileStore
import OpenVpnAndroid.ProfileCrash
import OpenVpnAndroid.ManagementReader
import OpenVpnAndroid.ProcessReplacement
import OpenVpnAndroid.ProxyIndex
import OpenVpnAndroid.LongestMatch
import OpenVpnAndroid.NetworkBlock
import OpenVpnAndroid.NetworkRound
import OpenVpnAndroid.RouteAgreement
import OpenVpnAndroid.RouteTermination
import OpenVpnAndroid.RoutePartition
import OpenVpnAndroid.RouteAssertions
import OpenVpnAndroid.CIDRIP
import OpenVpnAndroid.TextDecoding
import OpenVpnAndroid.Words
import OpenVpnAndroid.Regex
import OpenVpnAndroid.TunConfig
import OpenVpnAndroid.TunConfigText
import OpenVpnAndroid.Ipv6
import OpenVpnAndroid.Ipv6Text
import OpenVpnAndroid.TunReopen
import OpenVpnAndroid.DottedQuad
import OpenVpnAndroid.LocalIP
import OpenVpnAndroid.Commands
import OpenVpnAndroid.ConfigParser
import OpenVpnAndroid.InlineFile
import OpenVpnAndroid.ConnectionOptions
import OpenVpnAndroid.ConvertProfile
import OpenVpnAndroid.ImportCrashes
import OpenVpnAndroid.DnsImport
import OpenVpnAndroid.ProfileChecks
import OpenVpnAndroid.CheckedConfig
import OpenVpnAndroid.ExternalApi
import OpenVpnAndroid.LogItem
import OpenVpnAndroid.OpenVPNThread
import OpenVpnAndroid.LogFraming
import OpenVpnAndroid.LogTruncation
import OpenVpnAndroid.LogTransfer
import OpenVpnAndroid.LogBuffer
import OpenVpnAndroid.LogUniqueness
import OpenVpnAndroid.LogDelivery
import OpenVpnAndroid.LogFile
import OpenVpnAndroid.TrafficHistory
import OpenVpnAndroid.UuidText
import OpenVpnAndroid.PasswordCache
import OpenVpnAndroid.ConfigHash
import OpenVpnAndroid.ProfileManager
import OpenVpnAndroid.ProfileRemoval
import OpenVpnAndroid.AppRestrictions
import OpenVpnAndroid.EntryImport
import OpenVpnAndroid.Reconciliation
import OpenVpnAndroid.Recognition
import OpenVpnAndroid.Reapplication
import OpenVpnAndroid.AdManager
import OpenVpnAndroid.AdLoading
import OpenVpnAndroid.AdServer
import OpenVpnAndroid.HashSet
import OpenVpnAndroid.OrbotHelper
import OpenVpnAndroid.AdPolling
import OpenVpnAndroid.AdWaterfall
import OpenVpnAndroid.AdCap
import OpenVpnAndroid.ServerSelection
import OpenVpnAndroid.Ipv4Text
import OpenVpnAndroid.Radix64
import OpenVpnAndroid.Base64Encoder
import OpenVpnAndroid.PemFile
import OpenVpnAndroid.SerialNumber
import OpenVpnAndroid.CircularList
import OpenVpnAndroid.PacketId
import OpenVpnAndroid.ReplayWindow
import OpenVpnAndroid.ReplayProtection
import OpenVpnAndroid.Reliable
import OpenVpnAndroid.ReliableChannel
import OpenVpnAndroid.ControlChannel
import OpenVpnAndroid.CommandLine
import OpenVpnAndroid.Confirmation
import OpenVpnAndroid.RouteList
import OpenVpnAndroid.TunHandshake
import OpenVpnAndroid.TunOpening
import OpenVpnAndroid.TunRouting
