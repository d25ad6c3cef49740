import RemoteTerminal.Autostart
import RemoteTerminal.Connection.Run
import RemoteTerminal.Network.Site
import RemoteTerminal.Proofs.Connection.Custody
import RemoteTerminal.Proofs.Connection.Faults
import RemoteTerminal.Proofs.Connection.WindowSize
import RemoteTerminal.Proofs.Rlogin.OutputStream
import RemoteTerminal.Proofs.Stream.InputQueue
import RemoteTerminal.Proofs.Stream.OutputQueue
import RemoteTerminal.Proofs.Telnet.Agreement
import RemoteTerminal.Proofs.Telnet.Backlog
import RemoteTerminal.Proofs.Telnet.Conversation
import RemoteTerminal.Proofs.Telnet.OutputStream
import RemoteTerminal.Proofs.Telnet.ReadStream
import RemoteTerminal.Proofs.Telnet.Silence
import RemoteTerminal.Raw.Run
import RemoteTerminal.Ssh.Run
import RemoteTerminal.Stream.Run
import RemoteTerminal.Transport.Run
import RemoteTerminal.Proofs.Rlogin.Signals
import RemoteTerminal.Telnet.Codec.Run
import RemoteTerminal.Proofs.Telnet.Announcements
import RemoteTerminal.Proofs.Telnet.Consent
import RemoteTerminal.Proofs.Telnet.Containment
import RemoteTerminal.Proofs.Telnet.Limits
import RemoteTerminal.Proofs.Connection.WriteProgress
import RemoteTerminal.Proofs.Telnet.Deferral
import RemoteTerminal.Proofs.Telnet.ControlBytes
import RemoteTerminal.Proofs.Stream.Flushes
import RemoteTerminal.Proofs.Ssh.ChannelStream
import RemoteTerminal.Proofs.Ssh.Revocation
import RemoteTerminal.Proofs.Telnet.Frames
import RemoteTerminal.Proofs.Telnet.Environment
import RemoteTerminal.Proofs.Autostart
import RemoteTerminal.Proofs.Rlogin.LoginFrame
import RemoteTerminal.Proofs.Telnet.CarryOver
