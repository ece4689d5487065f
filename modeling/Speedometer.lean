import Speedometer.Lib.BitField
import Speedometer.Lib.LittleEndian
import Speedometer.Lib.Run
import Speedometer.Lib.Stopping
import Speedometer.Lib.Blocks
import Speedometer.Lib.History
import Speedometer.Lib.Line
import Speedometer.Lib.Handler
import Speedometer.Lib.Descriptors
import Speedometer.Cpp
import Speedometer.Setting
import Speedometer.Server.ComService
import Speedometer.Server.Table
import Speedometer.Client.ComService
import Speedometer.Codec
import Speedometer.Server.TcpService
import Speedometer.Server.UartService
import Speedometer.Server.LightSignals
import Speedometer.Server.Shutdown
import Speedometer.Server.Sockets
import Speedometer.Server.Window
import Speedometer.Client.TcpService
import Speedometer.Client.Receiver
import Speedometer.Client.Shutdown
import Speedometer.Client.UartService
import Speedometer.Client.UartReceiver
import Speedometer.Client.UartChunks
import Speedometer.Client.Window
import Speedometer.Client.Display
import Speedometer.Client.Canvas
import Speedometer.EndToEnd
import Speedometer.Esp32.Client
import Speedometer.Esp32.Host
import Speedometer.Esp32.Callbacks
import Speedometer.Esp32.Scanning
import Speedometer.Esp32.SetUp
import Speedometer.Esp32.Subscription
import Speedometer.Esp32.Server
import Speedometer.Esp32.Relay
import Speedometer.Esp32.Subscribers
import Speedometer.Esp32.ServerLed
import Speedometer.Esp32.Advertising
import Speedometer.Esp32.Forwarding
import Speedometer.Esp32.ClientLed
import Speedometer.Esp32.Link
import Speedometer.Esp32.Boards
import Speedometer.UartShutdown
import Speedometer.UartChain
import Speedometer.Setters
import Speedometer.Client.Embedding
import Speedometer.System
import Speedometer.Dashboards
import Speedometer.Server.Session
import Speedometer.Programs
import Speedometer.Convergence
