import Socat.Dtls13.Negotiation.Steps
import Socat.Machine.Path
import Socat.Machine.Returns

/-! # Attempts of a handshake

A handler is called with one message after the other and takes or refuses each of them. Both sides have
the same kind of invariant over such a run: the messages taken so far, what was checked about them, and
that the transcript consists of exactly these messages. A refused message changes nothing of this, with one
exception: a Finished whose MAC was right stays in the transcript when a later step refuses it, and so do
the messages of a client that were to answer it.
-/

namespace Socat.Dtls13.Negotiation

open Machine List

/-- A call of a handler with a message; `answer` is the flight it returned, `none` if it refused. -/
structure Attempt where
  message : HandshakeMessage
  outside : Outside
  answer : Option (List HandshakeMessage)

/-- A message of the epoch of the handshake keys. -/
def Attempt.Is (a : Attempt) (typ : UInt8) : Prop := a.message.typ = typ ∧ a.message.epoch = 2

/-- A handler answers a message with a flight. -/
abbrev Handler (σ : Type) := Outside → HandshakeMessage → EStateM Err σ (List HandshakeMessage)

/-- One call of a handler. -/
def Takes {σ : Type} (handle : Handler σ) (s : σ) (a : Attempt) (s' : σ) : Prop :=
  match handle a.outside a.message s with
  | .ok flight t => a.answer = some flight ∧ s' = t
  | .error _ t => a.answer = none ∧ s' = t

/-- The attempts that were not refused. -/
def accepted (attempts : List Attempt) : List Attempt := attempts.filter fun a => a.answer.isSome

variable {a : Attempt} {certificates : List X509}

section

variable {σ : Type} {handle : Handler σ} {s s' : σ} {Q : List HandshakeMessage → σ → Prop} {E : Err → σ → Prop}

/-- The two ways an attempt ends. -/
abbrev Attempt.Ended (a : Attempt) (Q : List HandshakeMessage → σ → Prop) (E : Err → σ → Prop) (s : σ) : Prop :=
  (∃ flight, a.answer = some flight ∧ Q flight s) ∨ (a.answer = none ∧ ∃ e, E e s)

theorem takes_of_ends (takes : Takes handle s a s') (ends : Ends (handle a.outside a.message) s Q E) :
    a.Ended Q E s' := by
  unfold Takes at takes
  unfold Ends at ends
  cases outcome : handle a.outside a.message s with
  | ok flight t =>
    simp only [outcome] at takes ends
    exact .inl ⟨flight, takes.1, takes.2 ▸ ends⟩
  | error e t =>
    simp only [outcome] at takes ends
    exact .inr ⟨takes.1, e, takes.2 ▸ ends⟩

end

/-- The transcript of accepted messages. -/
def transcriptOf (log : List Attempt) : Bytes := log.flatMap fun a => a.message.bytes

private theorem transcriptOf_concat (log : List Attempt) (a : Attempt) :
    transcriptOf (log ++ [a]) = transcriptOf log ++ a.message.bytes := by
  simp [transcriptOf]

theorem accepted_answered {flight : List HandshakeMessage} (answer : a.answer = some flight) :
    accepted [a] = [a] := by simp [accepted, answer]

theorem accepted_refused (answer : a.answer = none) : accepted [a] = [] := by simp [accepted, answer]

section

variable {σ : Type} {handle : Handler σ} {s s' : σ} {P : List Attempt → List Attempt → σ → Prop}
  {log refused attempts : List Attempt}

/-- A property of the accepted messages, of those whose refusal left a trace and of the state is kept by an attempt. -/
def Keeps (P : List Attempt → List Attempt → σ → Prop) (log refused : List Attempt) (a : Attempt) (s' : σ) : Prop :=
  ∃ more, more.Sublist [a] ∧ P (log ++ accepted [a]) (refused ++ more) s'

theorem keeps_of_same (stage : P (log ++ accepted [a]) refused s') : Keeps P log refused a s' :=
  ⟨[], nil_sublist _, by rwa [append_nil]⟩

theorem keeps_of_refused (answer : a.answer = none) (stage : P log refused s') : Keeps P log refused a s' :=
  keeps_of_same (by rwa [accepted_refused answer, append_nil])

theorem keeps_of_left (answer : a.answer = none) (stage : P log (refused ++ [a]) s') : Keeps P log refused a s' :=
  ⟨[a], .refl _, by rwa [accepted_refused answer, append_nil]⟩

/-- What the handlers of both sides share: a complete handshake takes nothing, the first phase takes a hello, and
the later ones take messages under the handshake keys. -/
structure Dispatch (σ : Type) where
  complete : σ → Bool
  phase : σ → Phase
  first : Phase
  hello : Handler σ
  later : Phase → Handler σ

def Dispatch.Runs (d : Dispatch σ) (handle : Handler σ) : Prop := ∀ outside m s, handle outside m s =
  if d.complete s then .error .unexpectedMessage s
  else if d.phase s = d.first then d.hello outside m s
  else if m.epoch ≠ 2 then .error .unexpectedMessage s
  else d.later (d.phase s) outside m s

namespace Dispatch.Runs

variable {d : Dispatch σ} {Q : List HandshakeMessage → σ → Prop} {E : Err → σ → Prop} (runs : d.Runs handle)
  (takes : Takes handle s a s')
include runs takes

theorem barred (unexpected : d.complete s = true ∨ d.phase s ≠ d.first ∧ a.message.epoch ≠ 2)
    (stage : P log refused s) :
    Keeps P log refused a s' := by
  have failed : handle a.outside a.message s = .error .unexpectedMessage s := by
    rw [runs]
    split_ifs <;> simp_all
  simp only [Takes, failed] at takes
  obtain ⟨answer, rfl⟩ := takes
  exact keeps_of_refused answer stage

theorem hello_ended (incomplete : d.complete s = false) (here : d.phase s = d.first)
    (ends : Ends (d.hello a.outside a.message) s Q E) : a.Ended Q E s' := by
  refine takes_of_ends takes ((ends_congr ?_).mpr ends)
  rw [runs, if_neg (by simp [incomplete]), if_pos here]

theorem later_ended (incomplete : d.complete s = false) (past : d.phase s ≠ d.first) (epoch : a.message.epoch = 2)
    {phase : Phase} (here : d.phase s = phase) (ends : Ends (d.later phase a.outside a.message) s Q E) :
    a.Ended Q E s' := by
  refine takes_of_ends takes ((ends_congr ?_).mpr ends)
  rw [runs, if_neg (by simp [incomplete]), if_neg past, if_neg (not_not.mpr epoch), here]

end Dispatch.Runs

/-- What every attempt keeps holds along a run. -/
theorem stage_run (step : ∀ {log refused s a s'}, P log refused s → Takes handle s a s' → Keeps P log refused a s')
    (stage : P log refused s) (run : Path (Takes handle) s attempts s') :
    ∃ more, more.Sublist attempts ∧ P (log ++ accepted attempts) (refused ++ more) s' := by
  induction run generalizing log refused with
  | nil => exact ⟨[], .slnil, by simpa [accepted] using stage⟩
  | @cons s mid s' a rest takes _ ih =>
    obtain ⟨first, among, next⟩ := step stage takes
    obtain ⟨later, among', final⟩ := ih next
    have split : accepted (a :: rest) = accepted [a] ++ accepted rest := by
      simp only [accepted, ← filter_append, singleton_append]
    exact ⟨first ++ later, among.append among', by rwa [split, ← append_assoc, ← append_assoc]⟩

end

/-! ## What is checked about a message -/

/-- A Certificate with a chain that `verifyPeer` passed; the chain of a server has a leaf. -/
def Certified [CertificateService] (config : Config) (client : Bool) (a : Attempt) (certificates : List X509) : Prop :=
  a.Is msgCertificate ∧ (client = true → certificates ≠ []) ∧ ∃ raw, parseCertificate a.message.body [] = .ok raw ∧
    verifyPeer config raw client a.outside = .ok certificates

/-- A CertificateVerify the leaf key verifies over the transcript so far. -/
def Signed [CertificateService] [Digests] (client : Bool) (k : KeySchedule) (before : List Attempt) (a : Attempt)
    (certificates : List X509) : Prop :=
  a.Is msgCertificateVerify ∧ ∃ leaf rest, certificates = leaf :: rest ∧
    verifyCertificateVerify leaf.key signatureSchemes a.message.body (k.extended (transcriptOf before)).transcriptSum
      client = .ok ()

/-- A chain a client verified has a leaf. -/
private theorem verifyPeer_nonempty [CertificateService] {config : Config} {raw : List Bytes} {outside : Outside}
    (verified : verifyPeer config raw true outside = .ok certificates) : certificates ≠ [] := by
  unfold verifyPeer at verified
  split at verified
  · cases verified
  · rw [Except.ite_error_eq_ok, Except.ite_error_eq_ok, Except.ite_error_eq_ok] at verified
    obtain ⟨nonempty, -, -, rest⟩ := verified
    split at rest
    · cases rest
    · rw [Except.ite_error_eq_ok] at rest
      cases rest.2
      rintro rfl
      exact nonempty ⟨rfl, .inl rfl⟩

/-! ## The transcript -/

/-- The Finished has the MAC over the messages of the peer and what else is in the transcript. -/
def Matches [Digests] (client : Bool) (k : KeySchedule) (rest : List Attempt) (extra : Bytes) (a : Attempt) : Prop :=
  (k.extended (transcriptOf rest ++ extra)).finished (if client then k.serverHandshake else k.clientHandshake) =
    .ok a.message.body

/-- What a side may write to the transcript before it refuses a Finished: a client its final flight. -/
def ownTypes : Bool → List UInt8
  | true => ClientHandshake.finalTypes
  | false => []

/-- What refused messages have left in the transcript. Each was a Finished with the right MAC at its time; it
stands there with the messages that were to answer it. -/
inductive Leftover [Digests] (client : Bool) (k : KeySchedule) (rest : List Attempt) : List Attempt → Bytes → Prop
  | nothing : Leftover client k rest [] []
  | more {refused : List Attempt} {extra : Bytes} {a : Attempt} {sent : List HandshakeMessage} :
      Leftover client k rest refused extra → a.Is msgFinished → a.answer = none → Matches client k rest extra a →
      (sent.map HandshakeMessage.typ).Sublist (ownTypes client) →
      Leftover client k rest (refused ++ [a]) (extra ++ (a.message.bytes ++ sent.flatMap HandshakeMessage.bytes))

theorem Leftover.nil [Digests] {client : Bool} {k : KeySchedule} {rest : List Attempt} {extra : Bytes}
    (leftover : Leftover client k rest [] extra) : extra = [] := by
  generalize none : ([] : List Attempt) = refused at leftover
  cases leftover with
  | nothing => rfl
  | more => simp at none

/-- A Finished with the MAC over the messages of the peer and what refused ones have left. -/
def Concluded [Digests] (client : Bool) (k : KeySchedule) (rest refused : List Attempt) (a : Attempt) : Prop :=
  a.Is msgFinished ∧ ∃ extra, Leftover client k rest refused extra ∧ Matches client k rest extra a

/-- A handshake with a schedule that started as `k`: its transcript went on with the messages of the peer
and what refused ones have left. -/
structure Progress [Digests] (config : Config) (client : Bool) (k : KeySchedule) (rest refused : List Attempt)
    (h : HandshakeState) : Prop where
  standing : h.standing = (false, config, client)
  schedule : ∃ extra, Leftover client k rest refused extra ∧ h.schedule = some (k.extended (transcriptOf rest ++ extra))

namespace Progress

variable [Digests] {config : Config} {client : Bool} {k : KeySchedule} {rest refused : List Attempt}
  {h h' : HandshakeState}

theorem clean (progress : Progress config client k rest [] h) : h.schedule = some (k.extended (transcriptOf rest)) := by
  obtain ⟨extra, leftover, scheduled⟩ := progress.schedule
  rw [scheduled, leftover.nil, append_nil]

theorem advance (progress : Progress config client k rest [] h)
    (advanced : HandshakeState.Advanced a.message h h') : Progress config client k (rest ++ [a]) [] h' := by
  obtain ⟨same, k', before, after⟩ := advanced
  cases Option.some.inj (progress.clean.symm.trans before)
  refine ⟨same.trans progress.standing, [], .nothing, ?_⟩
  rw [after, KeySchedule.extended_extended, transcriptOf_concat, append_nil]

theorem kept (progress : Progress config client k rest refused h) (kept : HandshakeState.Kept h h') :
    Progress config client k rest refused h' := by
  obtain ⟨extra, leftover, scheduled⟩ := progress.schedule
  exact ⟨(congrArg Prod.fst kept).trans progress.standing, extra, leftover, (congrArg Prod.snd kept).trans scheduled⟩

theorem incomplete (progress : Progress config client k rest refused h) : h.complete = false :=
  congrArg Prod.fst progress.standing

theorem side (progress : Progress config client k rest refused h) : h.client = client :=
  congrArg (·.2.2) progress.standing

theorem peerSecret (progress : Progress config client k rest refused h) (bytes : Bytes) :
    h.peerSecret (k.extended bytes) = if client then k.serverHandshake else k.clientHandshake := by
  unfold HandshakeState.peerSecret
  rw [progress.side]
  rfl

/-- The MAC of an accepted Finished. -/
theorem finished (progress : Progress config client k rest refused h) (last : a.Is msgFinished)
    (confirmed : h.Confirmed a.message) : Concluded client k rest refused a := by
  obtain ⟨extra, leftover, scheduled⟩ := progress.schedule
  obtain ⟨k', before, same⟩ := confirmed
  cases Option.some.inj (scheduled.symm.trans before)
  rw [progress.peerSecret] at same
  exact ⟨last, extra, leftover, same⟩

/-- What a refused Finished leaves. -/
theorem left (progress : Progress config client k rest refused h) (last : a.Is msgFinished) (answer : a.answer = none)
    (left : HandshakeState.Left (ownTypes client) a.message h h') :
    Progress config client k rest (refused ++ [a]) h' := by
  obtain ⟨k', before, same, sequence, clientApplication, serverApplication, sent, among, rfl⟩ := left
  obtain ⟨extra, leftover, scheduled⟩ := progress.schedule
  cases Option.some.inj (scheduled.symm.trans before)
  rw [progress.peerSecret] at same
  exact ⟨progress.standing, _, .more leftover last answer same among, by simp⟩

variable [CertificateService]

/-- The chain of an accepted Certificate. -/
theorem certified (progress : Progress config client k rest refused h) (epoch : a.message.epoch = 2)
    (typ : a.message.typ = msgCertificate) (presented : h.Presented a.outside a.message certificates) :
    Certified config client a certificates := by
  obtain ⟨raw, parsed, passed⟩ := presented
  rw [show h.config = config from congrArg (·.2.1) progress.standing, progress.side] at passed
  refine ⟨⟨typ, epoch⟩, ?_, raw, parsed, passed⟩
  rintro rfl
  exact verifyPeer_nonempty passed

/-- The signature of an accepted CertificateVerify. -/
theorem signed (progress : Progress config client k rest [] h) (epoch : a.message.epoch = 2)
    (typ : a.message.typ = msgCertificateVerify) (verified : h.Verified a.message) :
    Signed client k rest a h.state.peerCertificates := by
  obtain ⟨leaf, more, k', certificates, scheduled, signature⟩ := verified
  cases Option.some.inj (progress.clean.symm.trans scheduled)
  rw [progress.side] at signature
  exact ⟨⟨typ, epoch⟩, leaf, more, certificates, signature⟩

end Progress

end Socat.Dtls13.Negotiation
