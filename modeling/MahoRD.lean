import MahoRD.Host.LatestAudio
import MahoRD.Host.Handoff
import MahoRD.Host.InputPermissions
import MahoRD.Host.MediaStatus
import MahoRD.Host.StreamAnswers
import MahoRD.Relay.Supersession
import MahoRD.Video.RoundTrip
import MahoRD.Relay.SessionCap
import MahoRD.Relay.Lifetime
import MahoRD.App.AudioSessions
import MahoRD.App.MediaPipeline
import MahoRD.App.Reconnection
import MahoRD.App.KeyFrameRequests
import MahoRD.App.LateInput
import MahoRD.Host.ClipboardEcho
import MahoRD.App.Clipboard
import MahoRD.App.ClipboardImage
import MahoRD.App.AgentGate
import MahoRD.Host.StuckModifiers
import MahoRD.App.RequestReading
import MahoRD.App.PairingOrder
import MahoRD.Host.StoreOrder
import MahoRD.Host.PermissionChanges
import MahoRD.Host.Registration
import MahoRD.Host.Watchdog
import MahoRD.Host.DisplayChoice
import MahoRD.Ios.TouchOrder
import MahoRD.Ios.CancelOrder
import MahoRD.Relay.ConnectRate
import MahoRD.App.FrameLoss
import MahoRD.Audio.Reassembly
import MahoRD.Audio.Delivery
import MahoRD.App.LossPositions
import MahoRD.Host.GuestStatus
import MahoRD.Host.FrameSizes
import MahoRD.Tauri.ConnectionOrder
import MahoRD.Ios.ConnectionOrder
import MahoRD.Host.WorkerSupervision
import MahoRD.Net.StunFetch
import MahoRD.Net.BootstrapLockout
import MahoRD.App.AgentAtomic
import MahoRD.App.Nv12
import MahoRD.Host.WireAudio
import MahoRD.App.HotkeyGrammar
import MahoRD.App.PairingRecords
import MahoRD.Host.AdmissionReads
import MahoRD.Net.DiscoveryOrder
import MahoRD.Video.AccessUnits
import MahoRD.App.EventReceivers
import MahoRD.Ios.Viewport
import MahoRD.Host.LinuxClipboard
import MahoRD.App.AgentDispatch
import MahoRD.Tauri.HostList
import MahoRD.Host.AudioCapture
import MahoRD.Host.EncoderReconfigure
import MahoRD.Host.PointerMapping
import MahoRD.Host.TypedText
import MahoRD.Tauri.DesktopAudio
import MahoRD.App.TrustUpdate
import MahoRD.Tauri.ComputerLibrary
import MahoRD.App.Latency
import MahoRD.Host.WheelScroll
import MahoRD.Host.MacInjector
import MahoRD.Host.ControlPath
import MahoRD.Video.HostileNetwork
