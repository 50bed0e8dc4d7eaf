import Socat.Dtls13.Model.Session

/-! # What a connection publishes

The driver of an association tells its callers how much user data fits in one datagram.
-/

namespace Socat.Dtls13

/-- A negative budget is published as zero. -/
def datagramBudget (s : Session) : ℕ :=
  min maxContent (s.effectiveMTU - datagramOverhead s.probeCID.length defaultAEADTag)

end Socat.Dtls13
