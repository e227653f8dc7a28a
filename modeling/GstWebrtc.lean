import GstWebrtc.Base.Machine
import GstWebrtc.Base.PySet
import GstWebrtc.Base.PyText
import GstWebrtc.Base.Roster
import GstWebrtc.Base.CText
import GstWebrtc.Base.RustText
import GstWebrtc.Signalling.Tables
import GstWebrtc.Signalling.Replies
import GstWebrtc.Signalling.Handler
import GstWebrtc.Signalling.Interleaving
import GstWebrtc.Signalling.Steps
import GstWebrtc.Signalling.Branches
import GstWebrtc.Signalling.Effects
import GstWebrtc.Signalling.Ownership
import GstWebrtc.Signalling.Sequential
import GstWebrtc.Signalling.SessionTable
import GstWebrtc.Signalling.RoomTable
import GstWebrtc.Signalling.SessionAgreement
import GstWebrtc.Signalling.Cleanup
import GstWebrtc.Signalling.RoomClients
import GstWebrtc.Signalling.RoomViews
import GstWebrtc.Signalling.Isolation
import GstWebrtc.Signalling.Authenticity
import GstWebrtc.Signalling.OrderlyRooms
import GstWebrtc.Signalling.ClientMail
import GstWebrtc.Signalling.Handshake
import GstWebrtc.Multiparty.Client
import GstWebrtc.Multiparty.Conference
import GstWebrtc.Multiparty.PeerList
import GstWebrtc.Multiparty.Departure
import GstWebrtc.Multiparty.Negotiation
import GstWebrtc.Multiparty.RustClient
import GstWebrtc.Multiparty.RoomClient
import GstWebrtc.Multiparty.WireFormat
import GstWebrtc.Multiparty.RustPeers
import GstWebrtc.Signalling.Identity
import GstWebrtc.Signalling.SessionRelay
import GstWebrtc.Signalling.Acknowledgement
import GstWebrtc.Multiparty.RoomParty
import GstWebrtc.Multiparty.MemberPairs
import GstWebrtc.Multiparty.OfferAnswer
import GstWebrtc.Base.JsonGlib
import GstWebrtc.Sendrecv.Client
import GstWebrtc.Sendrecv.Survival
import GstWebrtc.Base.Websocket
import GstWebrtc.Android.Client
import GstWebrtc.Clients.Release
import GstWebrtc.Browser.Page
import GstWebrtc.Browser.OneConnection
import GstWebrtc.Browser.Calls
import GstWebrtc.Signalling.Serving
import GstWebrtc.Signalling.Commands
import GstWebrtc.Signalling.PeerMail
import GstWebrtc.Signalling.Removal
import GstWebrtc.Signalling.RoomPeerList
import GstWebrtc.Base.PyJson
import GstWebrtc.Sendrecv.PyClient
import GstWebrtc.Sendonly.StreamServer
import GstWebrtc.Base.GstBin
import GstWebrtc.Multiparty.Pipeline
import GstWebrtc.Multiparty.RustBins
import GstWebrtc.Multiparty.VideoMixer
import GstWebrtc.Base.Monitor
import GstWebrtc.Check.Observer
import GstWebrtc.Check.DataChannels
import GstWebrtc.Check.Signal
import GstWebrtc.Janus.VideoRoom
import GstWebrtc.Signalling.Identifiers
import GstWebrtc.Check.RemoteChannels
import GstWebrtc.Sendrecv.Negotiated
import GstWebrtc.Multiparty.Mesh
import GstWebrtc.Signalling.Presence
import GstWebrtc.Sendonly.Serving
import GstWebrtc.Check.OfferAnswer
