import HopToDesk.Laws.Wire.BytesCodec
import HopToDesk.Laws.Wire.Channel
import HopToDesk.Laws.Handshake.Client
import HopToDesk.Laws.Transfer.Confinement
import HopToDesk.Laws.Transfer.Publication
import HopToDesk.Laws.Transfer.EndToEnd
import HopToDesk.Laws.Transfer.Isolation
import HopToDesk.Laws.Clipboard.FileContents
import HopToDesk.Laws.Host.LoginFailures
import HopToDesk.Laws.Host.ServiceMaps
import HopToDesk.Laws.Host.Authorization
import HopToDesk.Laws.Host.Unauthorized
import HopToDesk.Laws.Host.Coherence
import HopToDesk.Laws.Host.Kinds
import HopToDesk.Laws.Host.Terminals
import HopToDesk.Laws.Config.Options
import HopToDesk.Laws.Config.TrustedDevices
import HopToDesk.Laws.Host.VideoFlow
import HopToDesk.Laws.Host.Cursor
import HopToDesk.Laws.Host.PrivacyMode
import HopToDesk.Laws.Clipboard.ServeFiles
import HopToDesk.Laws.Clipboard.PasteTask
import HopToDesk.Laws.Host.Keyboard
import HopToDesk.Laws.Host.TerminalSession
import HopToDesk.Laws.Transfer.RemoveJobs
import HopToDesk.Laws.Host.Webview
import HopToDesk.Laws.Host.Codec
import HopToDesk.Laws.Host.Mediator
import HopToDesk.Laws.Client.RemoteWebview
import HopToDesk.Laws.Host.Registry
import HopToDesk.Laws.Host.Signalling
import HopToDesk.Laws.Client.Reconnect
import HopToDesk.Laws.Forward.Tunnel
import HopToDesk.Laws.Host.OutputBuffer
import HopToDesk.Laws.Transfer.Serving
import HopToDesk.Laws.Transfer.Ending
import HopToDesk.Laws.Clipboard.FuseTree
import HopToDesk.Laws.Clipboard.FuseHandles
import HopToDesk.Laws.Clipboard.FileType
import HopToDesk.Laws.Clipboard.LocalFile
import HopToDesk.Laws.Handshake.Agreement
import HopToDesk.Laws.Host.OutputLimits
import HopToDesk.Laws.Host.CaptureDisplays
import HopToDesk.Laws.Host.DelayReaction
import HopToDesk.Laws.Wire.AddrMangle
import HopToDesk.Laws.Config.Persistence
import HopToDesk.Laws.Config.PeerFile
import HopToDesk.Config.Options
import HopToDesk.Host.VideoQos
import HopToDesk.Host.Displays
import HopToDesk.Host.RemoveLog
import HopToDesk.Kit.Topmost
import HopToDesk.Laws.Handshake.KeyLength
import HopToDesk.Laws.Host.DisplayRegistry
import HopToDesk.Laws.Transfer.ReadDir
import HopToDesk.Laws.Transfer.Printing
import HopToDesk.Laws.Host.LinkDashboard
import HopToDesk.Laws.Client.AudioBuffer
import HopToDesk.Laws.Host.TerminalCleanup
import HopToDesk.Laws.Client.RemoteKeys
import HopToDesk.Host.FrameCounter
import HopToDesk.Laws.Host.Uinput
import HopToDesk.Clipboard.Proto
import HopToDesk.Laws.Host.Recorder
import HopToDesk.Laws.Host.AudioService
import HopToDesk.Laws.Client.TerminalRepaint
import HopToDesk.Laws.Client.TerminalHtml
import HopToDesk.Laws.Config.ApiAvailability
import HopToDesk.Laws.Clipboard.PasteContent
import HopToDesk.Host.CommandOutput
import HopToDesk.Laws.Client.ChildWindows
import HopToDesk.Laws.Host.Whiteboard
import HopToDesk.Laws.Host.WhiteboardTask
import HopToDesk.Laws.Client.Launch
import HopToDesk.Laws.Client.PasswordMemory
import HopToDesk.Laws.Client.Options
import HopToDesk.Laws.Client.ConnectOutcome
import HopToDesk.Laws.Client.VoiceCall
import HopToDesk.Laws.Host.McpServer
import HopToDesk.Laws.Client.Video
import HopToDesk.Laws.Client.FpsControl
