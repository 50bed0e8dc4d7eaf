import Socat.Relay.Soundness.Copy
import Socat.Relay.Soundness.Shared
import Socat.Relay.Soundness.Transfer
import Socat.Tcpwrap.Soundness.Access
import Socat.Tcpwrap.Soundness.Lists
import Socat.Tcpwrap.Soundness.Framing
import Socat.Dtls13.Soundness.Migration
import Socat.Dtls13.Soundness.WorkingMTU
import Socat.Dtls13.Soundness.CookieLifetime
import Socat.Dtls13.Soundness.Authentication
import Socat.Dtls13.Soundness.ReassemblyOrder
import Socat.Dtls13.Soundness.FlightTimeouts
import Socat.Xio.Soundness.LockFile
import Socat.Xio.Soundness.Range
import Socat.Machine.Reader
import Socat.Xio.Soundness.Proxy
import Socat.Dtls13.Soundness.MTUSearch
import Socat.Dtls13.Soundness.Recovery
import Socat.Dtls13.Soundness.Budgets
import Socat.Dtls13.Soundness.Hellos
import Socat.Dtls13.Soundness.ControlCodecs
import Socat.Dtls13.Soundness.SendOnce
import Socat.Dtls13.Soundness.PacketBudget
import Socat.Dtls13.Soundness.MessageNumbers
import Socat.Tcpwrap.Soundness.Wildcards
import Socat.Xio.Soundness.Exec
import Socat.Xio.Soundness.RawIP
import Socat.Xio.Soundness.Fork
import Socat.Xio.Soundness.Filters
