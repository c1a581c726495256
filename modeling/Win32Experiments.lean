import Win32Experiments.Foundation.Memory
import Win32Experiments.Foundation.Handles
import Win32Experiments.Foundation.Run
import Win32Experiments.Foundation.Word
import Win32Experiments.XSocket.Transport
import Win32Experiments.XSocket.TransportTheorems
import Win32Experiments.XSocket.Misc
import Win32Experiments.XSocket.MiscTheorems
import Win32Experiments.SecureSocket.Handshake
import Win32Experiments.SecureSocket.HandshakeTheorems
import Win32Experiments.SecureSocket.Read
import Win32Experiments.SecureSocket.ReadTheorems
import Win32Experiments.SspiClientServer.Client2
import Win32Experiments.SspiClientServer.Client2Theorems
import Win32Experiments.OldSspiSample.Framing
import Win32Experiments.OldSspiSample.FramingTheorems
import Win32Experiments.OldSspiSample.Authentication
import Win32Experiments.OldSspiSample.AuthenticationTheorems
import Win32Experiments.Foundation.Threads
import Win32Experiments.WinSockIOCP.LifetimeTheorems
import Win32Experiments.WinSockIOCP.EchoTheorems
import Win32Experiments.WinsockCoroutine.EventLoop
import Win32Experiments.WinsockCoroutine.Session
import Win32Experiments.WinsockCoroutine.SocketsTheorems
import Win32Experiments.WinsockCoroutine.EchoTheorems
import Win32Experiments.WinsockCoroutine.EventLoopTheorems
import Win32Experiments.ConditionVariables.BoundedBuffer
import Win32Experiments.ConditionVariables.Steps
import Win32Experiments.ConditionVariables.WakeTheorems
import Win32Experiments.WebSocketProto.WinHttpWebSocket
import Win32Experiments.WebSocketProto.ReceiveTheorems
import Win32Experiments.WebSocketProto.Connection
import Win32Experiments.WebSocketProto.ConnectionTheorems
import Win32Experiments.RegEditor.Registry
import Win32Experiments.RegEditor.RegistryTheorems
import Win32Experiments.RegEditor.RegReads
import Win32Experiments.NamedPipe
import Win32Experiments.NamedPipeTheorems
import Win32Experiments.SmallPipes.ReadPipe
import Win32Experiments.PipeMessages.Framing
import Win32Experiments.PipeMessages.FramingTheorems
import Win32Experiments.ClientServerLib.Arrays
import Win32Experiments.ClientServerLib.ArraysTheorems
import Win32Experiments.ClientServerLib.Interleaving
import Win32Experiments.ClientServerLib.InterleavingTheorems
import Win32Experiments.ClientServerLib.Construction
import Win32Experiments.ClientServerLib.ConstructionTheorems
import Win32Experiments.Win32Service.Status
import Win32Experiments.Win32Service.StatusTheorems
import Win32Experiments.BasicCom.Server
import Win32Experiments.BasicCom.ServerTheorems
import Win32Experiments.FileLockMutex.FileSystemLock
import Win32Experiments.FileLockMutex.FileSystemLockTheorems
import Win32Experiments.ProgressBar.ProgressWindow
import Win32Experiments.ProgressBar.StatusTheorems
import Win32Experiments.ProgressBar.Cancellation
import Win32Experiments.ProgressBar.CancellationTheorems
import Win32Experiments.UiCallbacks.Window
import Win32Experiments.UiCallbacks.MoveTheorems
import Win32Experiments.UiCallbacks.Desktop
import Win32Experiments.UiCallbacks.IdentityInvariant
import Win32Experiments.UiCallbacks.IdentityOperations
import Win32Experiments.UiCallbacks.IdentityTheorems
import Win32Experiments.Foundation.Extent
import Win32Experiments.OldSspiSample.Message
import Win32Experiments.OldSspiSample.MessageTheorems
import Win32Experiments.ClientServerLib.Layout
import Win32Experiments.RegEditor.WriteKey
import Win32Experiments.SecureSocket.Connection
import Win32Experiments.SecureSocket.ConnectionTheorems
import Win32Experiments.SecureSocket.ReadCalls
import Win32Experiments.SecureSocket.ReadCallsTheorems
import Win32Experiments.SecureSocket.Tickets
import Win32Experiments.Foundation.Chunks
import Win32Experiments.StreamEncryption
import Win32Experiments.SecureSocket.Write
import Win32Experiments.SspiClientServer.Encrypt
import Win32Experiments.SspiClientServer.WritersTheorems
import Win32Experiments.SmallPipes.AsyncRead
import Win32Experiments.XSocket.RunLoop
import Win32Experiments.XSocket.RunLoopTheorems
import Win32Experiments.Foundation.Occurrences
import Win32Experiments.ExecuteCmd.Strings
import Win32Experiments.ExecuteCmd.Parse
import Win32Experiments.HardDriveInfo.Util
import Win32Experiments.WebSocketProto.CleanServer
import Win32Experiments.WinHttp.DoRequest
import Win32Experiments.WebSocket.ReceiveLoop
import Win32Experiments.EventLog.ParameterStrings
import Win32Experiments.EventLog.ParameterStringsTheorems
import Win32Experiments.EventLog.Messages
import Win32Experiments.EventLog.MessagesTheorems
import Win32Experiments.Foundation.Halting
import Win32Experiments.XAudio2.FindChunk
import Win32Experiments.XAudio2.FindChunkTheorems
import Win32Experiments.XAudio2.RiffTheorems
import Win32Experiments.VirtualAllocReserving.CommitOnDemand
import Win32Experiments.Foundation.Shares
import Win32Experiments.LayoutDemo.VBox
import Win32Experiments.UiCallbacks.Layout
import Win32Experiments.Foundation.Checked
import Win32Experiments.Win32Ui.Gradient
import Win32Experiments.Win32UiControls.PaintContext
import Win32Experiments.WaitOnObjects.WaitOn
import Win32Experiments.FileLockMutex.ProcessInformation
import Win32Experiments.WaitableTimers.WorkerThread
import Win32Experiments.PipeLib.ProcessInfo
import Win32Experiments.SmallPipes.OverlappedMoves
import Win32Experiments.CertEncodeDecode.ByteToStr
import Win32Experiments.FileLockMutex.ExecutablePath
import Win32Experiments.Foundation.Cleanup
import Win32Experiments.TakingOwnership.TakeOwnership
import Win32Experiments.Foundation.Circle
import Win32Experiments.HardDriveInfo.StringVector
import Win32Experiments.EventLog.FormatMessage
import Win32Experiments.UiCallbacks.Control
import Win32Experiments.Win32Threads.Apc
import Win32Experiments.Win32Ui.MainWindow
import Win32Experiments.Win32UiControls.TopLevelWindow
import Win32Experiments.XSocket.List
import Win32Experiments.ConditionVariables.ShutdownTheorems
import Win32Experiments.SecureSocket.Session
import Win32Experiments.XSocket.HeapTransport
import Win32Experiments.BasicCom.Registration
import Win32Experiments.Foundation.Varint
import Win32Experiments.WebSocketProto.EchoTheorems
import Win32Experiments.Win32Threads.ThreadQueue
import Win32Experiments.Win32Threads.ThreadQueueTheorems
import Win32Experiments.Foundation.Matching
import Win32Experiments.WinsockCoroutineJunie.EchoTheorems
import Win32Experiments.WinsockCoroutineJunie.ExitTheorems
