import Nl80211.Lib.Bytes
import Nl80211.Lib.Traced
import Nl80211.Lib.LastReport
import Nl80211.Lib.Triple
import Nl80211.Lib.Shell
import Nl80211.Lib.ShellAccount
import Nl80211.Lib.Ownership
import Nl80211.Lib.Counted
import Nl80211.Lib.Slots
import Nl80211.Libnl.Attr
import Nl80211.Libnl.Inspect
import Nl80211.Libnl.Msg
import Nl80211.Libnl.Recv
import Nl80211.Libnl.Packet
import Nl80211.Libnl.Dump
import Nl80211.Libnl.Exchange
import Nl80211.Libnl.Sequence
import Nl80211.Libnl.Encode
import Nl80211.Libnl.Build
import Nl80211.Libnl.Compose
import Nl80211.Libnl.Socket
import Nl80211.Libnl.Sockets
import Nl80211.Libnl.Callers
import Nl80211.Libnl.Family
import Nl80211.Libnl.Ctrl
import Nl80211.Libnl.Resolve
import Nl80211.Libnl.Lookup
import Nl80211.Libnl.Registry
import Nl80211.Wifi.Record
import Nl80211.Wifi.Handlers
import Nl80211.Wifi.Reports
import Nl80211.Wifi.Accesses
import Nl80211.Wifi.Copies
import Nl80211.Wifi.Bounds
import Nl80211.Wifi.Object
import Nl80211.Wifi.Update
import Nl80211.Wifi.Phases
import Nl80211.Wifi.Rounds
import Nl80211.Wifi.Termination
import Nl80211.Wifi.Delivery
import Nl80211.Wifi.Selection
import Nl80211.Wifi.Stations
import Nl80211.Wifi.Calls
import Nl80211.Wifi.Lifecycle
import Nl80211.Wifi.Requests
import Nl80211.Wifi.Commands
import Nl80211.Wifi.LinkSsid
import Nl80211.Wifi.Decode
import Nl80211.Wifi.StationMessage
import Nl80211.Wifi.Bitrate
import Nl80211.Wifi.Channels
import Nl80211.Iw.Command
import Nl80211.Netinfc.Object
import Nl80211.Netinfc.Flags
import Nl80211.Netinfc.Address
import Nl80211.Netinfc.Getters
import Nl80211.Iw.Ies
import Nl80211.Iw.Link
import Nl80211.Iw.LinkName
import Nl80211.Lib.Snprintf
import Nl80211.Lib.Lines
import Nl80211.Iw.Station
