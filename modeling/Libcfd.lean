import Libcfd.Foundation.Machine
import Libcfd.Edge.Quic.Quiche
import Libcfd.Edge.Error
import Libcfd.Edge.Event
import Libcfd.Edge.Connector
import Libcfd.Edge.H2.Register
import Libcfd.Edge.H2.Serve
import Libcfd.Edge.H2.Drain
import Libcfd.Edge.Connector.Runtime
import Libcfd.Edge.H2.Unregister
import Libcfd.Edge.Connector.Shutdown
import Libcfd.Foundation.Program
import Libcfd.Foundation.Stream
import Libcfd.Rpc.Error
import Libcfd.Rpc.Io
import Libcfd.Foundation.LittleEndian
import Libcfd.Rpc.Framing
import Libcfd.Rpc.Client
import Libcfd.Foundation.Trace
import Libcfd.Rpc.Session
import Libcfd.Rpc.Finish
import Libcfd.Rpc.Cloudflared
import Libcfd.Rpc.Serve
import Libcfd.Rpc.Delivery
import Libcfd.Rpc.Tunnel
import Libcfd.Edge.Control
import Libcfd.Origin.Pump
import Libcfd.Origin.Backpressure
import Libcfd.Edge.Connector.Outcome
import Libcfd.Edge.Configuration
import Libcfd.Edge.Configuration.Order
import Libcfd.Edge.Connector.Fallback
import Libcfd.Foundation.Polls
import Libcfd.Rpc.Quic
import Libcfd.Foundation.Reader
import Libcfd.Origin.Axum
import Libcfd.Edge.Metadata
import Libcfd.Foundation.Base64
import Libcfd.Edge.H2.Headers
import Libcfd.Edge.Serve
import Libcfd.Edge.Serve.Layout
import Libcfd.Foundation.Network
import Libcfd.Rpc.Exchange
import Libcfd.Edge.Discovery
import Libcfd.Edge.Discovery.Returns
import Libcfd.Edge.Quic.Quinn
import Libcfd.Edge.Connector.IdleTimeout
import Libcfd.Edge.H2.Stream
import Libcfd.Origin.Propagation
import Libcfd.Edge.H2.Signal
import Libcfd.Edge.H2.Deadline
import Libcfd.Edge.Serve.Drain
import Libcfd.Edge.Serve.Settle
import Libcfd.Foundation.Lossy
import Libcfd.Edge.Serve.Failure
import Libcfd.Edge.Serve.Upload
import Libcfd.Edge.Quic.Quinn.Upload
import Libcfd.Edge.Quic.Quiche.Upload
import Libcfd.Edge.Quic.Upload
import Libcfd.Edge.H2.Tcp
import Libcfd.Edge.H2.Writer
import Libcfd.Edge.H2.Reserved
import Libcfd.Foundation.Reorder
import Libcfd.Edge.Metadata.Request
import Libcfd.Edge.Discovery.Name
import Libcfd.Edge.Discovery.Query
import Libcfd.Edge.Discovery.Answer
import Libcfd.Edge.Discovery.Message
import Libcfd.Edge.Discovery.Extent
import Libcfd.Foundation.Text
import Libcfd.Tunnel.Quick.Api
import Libcfd.Tunnel.Quick.Truncated
import Libcfd.Tunnel.Quick.Create
import Libcfd.Edge.Discovery.Spelling
import Libcfd.Edge.Discovery.Edges
import Libcfd.Foundation.Uuid
import Libcfd.Tunnel.Named
import Libcfd.Rpc.Ending
import Libcfd.Edge.Connector.Backoff
import Libcfd.Edge.Connector.Registered
import Libcfd.Edge.Quic.Quiche.Driver
import Libcfd.Rpc.Import
import Libcfd.Edge.Quic.Quiche.Wakers
import Libcfd.Edge.Connector.RetryAfter
import Libcfd.Edge.Connector.Results
import Libcfd.Edge.Connector.Verdict
import Libcfd.Edge.H2.Arrival
import Libcfd.Origin.Axum.Serve
import Libcfd.Edge.H2.Pump
import Libcfd.Edge.Quic.Quiche.Passes
import Libcfd.Edge.Quic.Quiche.Accepted
import Libcfd.Edge.Discovery.Search
