import WebTransport.Qpack.RoundTrip
import WebTransport.Qpack.Strictness
import WebTransport.Qpack.Truncation
import WebTransport.Qpack.Shortest
import WebTransport.Qpack.Decode
import WebTransport.H3.Settings
import WebTransport.Conn.H3Streams
import WebTransport.Conn.Wakeup
import WebTransport.H3.Control
import WebTransport.Qpack.Length
import WebTransport.Qpack.PrefixExact
import WebTransport.Huffman.Progress
import WebTransport.H3.Connect
import WebTransport.H3.Arrivals
import WebTransport.Session.Progress
import WebTransport.Session.Exchange
import WebTransport.Conn.Liveness
import WebTransport.Session.Endpoint
import WebTransport.Session.EndToEnd
