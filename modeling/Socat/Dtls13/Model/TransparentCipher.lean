import Socat.Dtls13.Model.Driver

/-! # A transparent cipher

The laws of `Crypto` are consistent: a cipher that hides nothing and authenticates the secret and the
number of a record in its tag has them all. The sessions at the end run with it.
-/

namespace Socat.Dtls13

/-- Eight bytes of the secret and eight bytes of the record's number. -/
def transparentTag (keys : TrafficKeys) (sequence : ℕ) : Bytes :=
  bigEndian (readNat keys.secret) 8 ++ bigEndian sequence 8

private theorem transparentTag_length (keys : TrafficKeys) (sequence : ℕ) :
    (transparentTag keys sequence).length = aeadOverhead := by
  simp [transparentTag, aeadOverhead]

/-- The next secret is the successor. -/
abbrev transparent : Crypto where
  aeadSeal keys _ sequence plaintext := plaintext ++ transparentTag keys sequence
  aeadOpen keys _ sequence ciphertext :=
    if ciphertext.drop (ciphertext.length - aeadOverhead) = transparentTag keys sequence then
      some (ciphertext.take (ciphertext.length - aeadOverhead))
    else none
  mask _ _ := Vector.replicate 16 0
  trafficUpdate suite secret := bigEndian (readNat secret + 1) suite.hashSize
  aeadSeal_length keys _ sequence plaintext := by
    rw [List.length_append, transparentTag_length]
  aeadOpen_seal keys _ sequence plaintext := by
    simp [transparentTag_length]
  trafficUpdate_length suite secret := by simp

def transparentKeys (n : ℕ) : TrafficKeys where
  suite := ⟨0x1301, 32, 2 ^ 24⟩
  secret := bigEndian n 32
  supported := by decide
  secretLength := by simp

/-! ## Sessions -/

/-- One side of an association after the stateless retry. -/
def newWorld (client : Bool) : World where
  session.handshake := {
    config := some { MTU := 1200 }
    client
    sequence := if client then 2 else 1
    retried := client
    retrySuite := 0x1301
    verifiedHello := [1, 2, 3]
    selectedSuite := 0x1301 }
  session.reassembly := { next := 1 }

theorem fresh_newWorld (client : Bool) : Fresh (newWorld client).session where
  read := rfl
  write := ⟨0, rfl⟩
  installed := rfl
  readApplicationEpoch := rfl
  outbound := rfl
  post _ := rfl
  pending sequence p found := by simp [newWorld] at found
  incomplete := rfl
  phase := rfl
  pendingACK := rfl
  idle := rfl

/-- The newest datagram on the wire. -/
def World.newest (w : World) : Bytes := (w.history.wire.head?.map Packet.bytes).getD []

/-- An event in surroundings that refuse nothing. -/
def Event.alone (event : Event) : Operation × Env := (.event event, {})

/-- The script of a client that says hello. -/
def helloScript : List (Operation × Env) := [(Event.start [⟨1, 1, 0, [1, 2, 3]⟩] 0).alone]

/-- Checks that succeed and derivations that give the secrets of both sides, numbered. -/
def agreedAnswers (secrets : List ℕ) : Answers where
  secrets := secrets.map (bigEndian · 32)
  hello := { suite := 0x1301 }
  certificates := 1

/-- A datagram whose message the handshake takes. -/
def takes (datagram : Bytes) (secrets : List ℕ) : Operation × Env :=
  (.event (.receive datagram {} 1), { handshakes := [agreedAnswers secrets] })

/-- The server after the ClientHello. -/
def servedWorld : World :=
  @perform transparent [takes (@perform transparent helloScript (newWorld true)).newest [1, 2, 3, 4]] (newWorld false)

/-- The client's side of the handshake: the handshake secrets come with the ServerHello, those of the
application with Finished. -/
def clientScript : List (Operation × Env) :=
  helloScript ++ servedWorld.history.wire.reverse.map fun p =>
    takes p.bytes (if p.number.epoch = 0 then [1, 2] else [3, 4])

/-- A client that may exchange user data. -/
def openClient : World := @perform transparent clientScript (newWorld true)

/-- A server that may exchange user data: it has the client's last flight. -/
def openServer : World :=
  @perform transparent (openClient.history.wire.reverse.map fun p => takes p.bytes []) servedWorld

theorem steps_openClient : @Steps transparent (newWorld true) openClient := by
  unfold openClient
  exact @steps_perform transparent _ _

end Socat.Dtls13
