import LibNbiot.LoopStart
import LibNbiot.LoopBreak
import LibNbiot.Laws.Attach
import LibNbiot.Laws.Durations
import LibNbiot.Laws.SessionState
import LibNbiot.Laws.SwitchedOff
import LibNbiot.Laws.Credentials
import LibNbiot.Laws.Connecting
import LibNbiot.Laws.Publishing
import LibNbiot.Laws.Requests
import LibNbiot.Laws.Transmissions
import LibNbiot.Laws.Acknowledging
import LibNbiot.Laws.Reporting
import LibNbiot.Laws.Coverage
import LibNbiot.Laws.Isolation
import LibNbiot.Laws.Sessions
import LibNbiot.Laws.Subscribing
import LibNbiot.Laws.Registry
import LibNbiot.Modem.SocketFilter
import LibNbiot.Laws.Connacks
import LibNbiot.Laws.Startup
import LibNbiot.Laws.Removing
import LibNbiot.Laws.Unsubscribing
import LibNbiot.Laws.Waking
import LibNbiot.Laws.Announcing
import LibNbiot.Laws.Rebooting
import LibNbiot.Laws.Wildcards
import LibNbiot.Laws.KeepAlive
import LibNbiot.Modem.Bc95Reading
import LibNbiot.Modem.SerialTimeouts
import LibNbiot.Modem.MalformedLines
import LibNbiot.Modem.Bc95Sending
import LibNbiot.Modem.ModemBase
import LibNbiot.Modem.Bg96Reading
import LibNbiot.Modem.SaraReading
import LibNbiot.Modem.ReadBuffers
import LibNbiot.Laws.Countdown
import LibNbiot.Laws.Ticking
import LibNbiot.Modem.RingBlocks
import LibNbiot.Modem.AtCommands
import LibNbiot.Modem.UrcHandlers
import LibNbiot.Modem.Substrings
import LibNbiot.Wire.Headers
import LibNbiot.Laws.Answering
import LibNbiot.Laws.Buffers
import LibNbiot.Lists.Programs
import LibNbiot.Lists.Registry
import LibNbiot.Engine.Dispatching
import LibNbiot.Modem.ModemSessions
