import Socat.Dtls13.Model.State
import Socat.Dtls13.Moves.Phases

/-! # The messages a handler numbers

Each message a handler answers with takes the next sequence number. `Drafting` gives the messages a computation
numbered, in their order, next to its result; a handler numbers exactly the messages it answers with. What it
never changes is the configuration and the side.
-/

namespace Socat.Dtls13

open Machine HandshakeM

/-- Messages of the operations that follow the handshake. -/
def HandshakeMessage.isPost (m : HandshakeMessage) : Bool := postTypes.any fun typ => typ.code == m.typ

abbrev HandshakeWorld.Fixed : HandshakeWorld → HandshakeWorld → Prop :=
  Unchanged fun w => (w.handshake.config, w.handshake.client)

/-- No message was numbered. -/
abbrev HandshakeWorld.Uncounted : HandshakeWorld → HandshakeWorld → Prop :=
  Unchanged fun w => ((w.handshake.config, w.handshake.client), w.handshake.sequence)

theorem HandshakeWorld.Uncounted.fixed {w w' : HandshakeWorld} (same : w.Uncounted w') : w.Fixed w' :=
  congrArg Prod.fst same

open HandshakeWorld (Idle Uncounted)

/-- The messages took the next numbers. -/
structure HandshakeWorld.Drafts (w : HandshakeWorld) (drafted : List HandshakeMessage) (w' : HandshakeWorld) :
    Prop where
  fixed : w.Fixed w'
  numbers : drafted.map (·.sequence) = List.range' w.handshake.sequence drafted.length
  counter : w'.handshake.sequence = w.handshake.sequence + drafted.length
  bounded : w.handshake.sequence ≤ 65536 → w'.handshake.sequence ≤ 65536
  early : ∀ m ∈ drafted, m.isPost = false

theorem HandshakeWorld.Uncounted.drafts {w w' : HandshakeWorld} (same : w.Uncounted w') : w.Drafts [] w' where
  fixed := same.fixed
  numbers := rfl
  counter := congrArg Prod.snd same
  bounded below := (congrArg Prod.snd same).le.trans below
  early := nofun

theorem HandshakeWorld.Drafts.trans {w w' w'' : HandshakeWorld} {drafted later : List HandshakeMessage}
    (first : w.Drafts drafted w') (second : w'.Drafts later w'') : w.Drafts (drafted ++ later) w'' where
  fixed := first.fixed.trans second.fixed
  numbers := by
    rw [List.map_append, first.numbers, second.numbers, first.counter, List.length_append, List.range'_append_1]
  counter := by
    rw [second.counter, first.counter, List.length_append, Nat.add_assoc]
  bounded below := second.bounded (first.bounded below)
  early m listed := (List.mem_append.mp listed).elim (first.early m) (second.early m)

/-- The computation numbers messages that fit its result. -/
def Drafting {α : Type} (x : HandshakeM α) (R : α → List HandshakeMessage → Prop) : Prop :=
  ∀ w, Ends x w (fun a w' => ∃ drafted, R a drafted ∧ w.Drafts drafted w') (fun _ w' => w.Fixed w')

section Rules

variable {α β : Type} {R : α → List HandshakeMessage → Prop} {S : β → List HandshakeMessage → Prop}

theorem drafting_pure {a : α} (fits : R a []) : Drafting (pure a) R := fun w =>
  ends_pure.mpr ⟨[], fits, Uncounted.drafts (Std.Refl.refl w)⟩

theorem drafting_throw (e : Err) : Drafting (throw e : HandshakeM α) R := fun _ => ends_throw.mpr rfl

theorem drafting_bind {x : HandshakeM α} {f : α → HandshakeM β} (first : Drafting x R)
    (rest : ∀ a drafted, R a drafted → Drafting (f a) fun b later => S b (drafted ++ later)) :
    Drafting (x >>= f) S := by
  intro w
  rw [ends_bind]
  apply (first w).imp
  rintro a w' ⟨drafted, fits, before⟩
  apply (rest a drafted fits w').mono
  · rintro b w'' ⟨later, fits', after⟩
    exact ⟨drafted ++ later, fits', before.trans after⟩
  · intro _ w'' fixed
    exact before.fixed.trans fixed

/-- A step before the first message. -/
theorem drafting_after {x : HandshakeM α} {f : α → HandshakeM β} (same : Respects Uncounted x)
    (rest : ∀ a, Drafting (f a) S) : Drafting (x >>= f) S := by
  intro w
  rw [ends_bind]
  apply (same w).mono
  · intro a w' before
    apply (rest a w').mono
    · rintro b w'' ⟨drafted, fits, after⟩
      exact ⟨drafted, fits, before.drafts.trans after⟩
    · intro _ w'' fixed
      exact before.fixed.trans fixed
  · exact fun _ _ failed => failed.fixed

theorem drafting_ite {c : Prop} [Decidable c] {x y : HandshakeM α} (yes : Drafting x R) (no : Drafting y R) :
    Drafting (if c then x else y) R := by
  split
  · exact yes
  · exact no

end Rules

/-! ## Steps that number nothing -/

theorem uncounted_of_idle {α : Type} {x : HandshakeM α} (idle : Respects Idle x) :
    Respects Uncounted x :=
  idle.weaken fun _ _ idle => (congrArg (fun h : Handshake => ((h.config, h.client), h.sequence)) idle :)

theorem getHandshake_uncounted : Respects Uncounted getHandshake := fun _ => rfl

theorem getAnswers_uncounted : Respects Uncounted getAnswers := fun _ => rfl

theorem check_uncounted : Respects Uncounted check := uncounted_of_idle check_idle

theorem startSchedule_uncounted (id : ℕ) : Respects Uncounted (startSchedule id) := by
  refine respects_bind (respects_attempt (uncounted_of_idle (newKeySchedule_idle id))) fun outcome => ?_
  split
  · exact fun _ => rfl
  · exact respects_bind (fun _ => rfl) fun _ => respects_throw _

theorem applicationSecrets_uncounted : Respects Uncounted applicationSecrets := by
  have derived : ∀ size, Respects Uncounted (derive size) := fun _ => uncounted_of_idle (derive_idle _)
  refine respects_bind getHandshake_uncounted fun h => ?_
  split
  · exact respects_throw _
  · exact respects_bind (fun _ => rfl) fun _ => respects_bind (derived _) fun _ =>
      respects_bind (fun _ => rfl) fun _ => respects_bind (derived _) fun _ _ => rfl

theorem finish_uncounted : Respects Uncounted finish := respects_bind check_uncounted fun _ _ => rfl

private theorem acceptHello_uncounted (hello : ServerHello) : Respects Uncounted (acceptHello hello) :=
  respects_bind check_uncounted fun _ => respects_bind (uncounted_of_idle (takeConnectionID_idle _)) fun _ =>
    respects_bind (uncounted_of_idle (respects_runIf takeRRC_idle)) fun _ => respects_bind check_uncounted fun _ =>
      respects_bind (startSchedule_uncounted _) fun _ _ => rfl

/-! ## Messages -/

private theorem message_drafts {typ : UInt8} (early : ∀ p ∈ postTypes, p.code ≠ typ) (epoch : ℕ) (body : Bytes)
    (w : HandshakeWorld) :
    Ends (message typ epoch body) w (fun m w' => w.Drafts [m] w') (fun _ w' => w.Fixed w') := by
  unfold message
  rw [ends_bind, ends_getHandshake]
  unfold Handshake.message
  split_ifs with used
  · exact rfl
  · dsimp only
    rw [ends_bind]
    apply (respects_runIf check_uncounted w).mono
    · intro _ w' _
      refine ends_bind.mpr (ends_modifyHandshake.mpr (ends_pure.mpr ⟨rfl, rfl, rfl, ?_, ?_⟩))
      · exact fun _ => by show w.handshake.sequence + 1 ≤ 65536; omega
      · intro m listed
        obtain rfl := List.mem_singleton.mp listed
        simp only [HandshakeMessage.isPost, List.any_eq_false, beq_iff_eq]
        exact early
    · exact fun _ _ failed => failed.fixed

/-- A message of the handshake is numbered before the rest. -/
theorem drafting_message {α : Type} {typ : UInt8} {epoch : ℕ} {f : HandshakeMessage → HandshakeM α}
    {R : α → List HandshakeMessage → Prop} (early : ∀ p ∈ postTypes, p.code ≠ typ)
    (rest : ∀ m, Drafting (f m) fun a later => R a (m :: later)) : Drafting (encodedMessage typ epoch >>= f) R := by
  have numbered : Drafting (encodedMessage typ epoch) fun m drafted => drafted = [m] := by
    refine drafting_after (uncounted_of_idle encoded_idle) fun body w => ?_
    exact (message_drafts early epoch body w).imp fun m w' drafts => ⟨[m], rfl, drafts⟩
  refine drafting_bind numbered fun m drafted only => ?_
  subst only
  exact rest m

/-- The messages are numbered in the order in which they are sent. -/
abbrev InOrder (flight drafted : List HandshakeMessage) : Prop := flight = drafted

theorem certificateFlight_drafting (certified : Bool) : Drafting (certificateFlight certified) InOrder :=
  drafting_message (by decide) fun _ => drafting_ite
    (drafting_message (by decide) fun _ => drafting_pure rfl) (drafting_pure rfl)

private theorem retryRequest_drafting (hello : ServerHello) : Drafting (retryRequest hello) InOrder :=
  drafting_after getHandshake_uncounted fun _ => drafting_after (respects_throwIf _ _) fun _ =>
    drafting_after check_uncounted fun _ => drafting_after (fun _ => rfl) fun _ =>
      drafting_after check_uncounted fun _ => drafting_message (by decide) fun _ => drafting_pure rfl

private theorem serverHello_drafting : Drafting serverHello InOrder :=
  drafting_after check_uncounted fun _ => drafting_after getAnswers_uncounted fun _ =>
    drafting_after getHandshake_uncounted fun _ => drafting_after (respects_throwIf _ _) fun _ =>
      drafting_after check_uncounted fun _ => drafting_ite (retryRequest_drafting _) <|
        drafting_after (acceptHello_uncounted _) fun _ => drafting_pure rfl

private theorem finalFlight_drafting : Drafting finalFlight InOrder := by
  have requested : ∀ requested, Drafting (requestedFlight requested) InOrder := fun _ =>
    drafting_after getAnswers_uncounted fun _ => drafting_ite
      (drafting_after check_uncounted fun _ => certificateFlight_drafting _) (drafting_pure rfl)
  refine drafting_after applicationSecrets_uncounted fun _ => drafting_after getHandshake_uncounted fun _ =>
    drafting_bind (requested _) fun certificates drafted same => drafting_message (by decide) fun finished =>
      drafting_after finish_uncounted fun _ => drafting_pure ?_
  rw [same]

/-- A checked message moves the handler to its next phase. -/
theorem phase_drafting {α : Type} {c : Prop} [Decidable c] {e : Err} {x : HandshakeM α} {change : Handshake → Handshake}
    (checked : Respects Idle x)
    (same : Respects Uncounted (modifyHandshake change)) :
    Drafting (do
      throwIf c e
      let _ ← x
      modifyHandshake change
      return []) InOrder :=
  drafting_after (respects_throwIf _ _) fun _ => drafting_after (uncounted_of_idle checked) fun _ =>
    drafting_after same fun _ => drafting_pure rfl

private theorem clientPhase_drafting (phase : Phase) (m : HandshakeMessage) :
    Drafting (clientPhase phase m) InOrder := by
  cases phase with
  | encryptedExtensions => exact phase_drafting check_idle fun _ => rfl
  | certificateRequest =>
    refine drafting_ite ?_ (phase_drafting peerCertificate_idle fun _ => rfl)
    exact drafting_after check_uncounted fun _ => drafting_after (fun _ => rfl) fun _ =>
      drafting_after check_uncounted fun _ => drafting_after (fun _ => rfl) fun _ =>
        drafting_pure rfl
  | certificate => exact phase_drafting peerCertificate_idle fun _ => rfl
  | certificateVerify => exact phase_drafting peerCertificateVerify_idle fun _ => rfl
  | finished =>
    exact drafting_after (respects_throwIf _ _) fun _ =>
      drafting_after (uncounted_of_idle peerFinished_idle) fun _ => finalFlight_drafting
  | clientHello => exact drafting_throw _
  | serverHello => exact drafting_throw _

private theorem serverFlight_drafting (offer : Offer) : Drafting (serverFlight offer) InOrder := by
  have request : ∀ asked, Drafting (certificateRequest asked) InOrder := fun _ =>
    drafting_ite (drafting_message (by decide) fun _ => drafting_pure rfl) (drafting_pure rfl)
  refine drafting_after check_uncounted fun _ => drafting_after check_uncounted fun _ =>
    drafting_after check_uncounted fun _ => drafting_after (uncounted_of_idle (acceptOffer_idle offer)) fun _ =>
    drafting_after check_uncounted fun _ => drafting_after (fun _ => rfl) fun _ =>
    drafting_after getHandshake_uncounted fun _ => drafting_message (by decide) fun hello =>
    drafting_after check_uncounted fun _ => drafting_after (startSchedule_uncounted _) fun _ =>
    drafting_after check_uncounted fun _ => drafting_message (by decide) fun extensions =>
    drafting_bind (request _) fun asked drafted same =>
      drafting_bind (certificateFlight_drafting _) fun chain drafted' same' =>
    drafting_message (by decide) fun finished => drafting_after applicationSecrets_uncounted fun _ =>
    drafting_after (fun _ => rfl) fun _ => drafting_pure ?_
  rw [same, same']
  simp [InOrder]

private theorem serverPhase_drafting (phase : Phase) (m : HandshakeMessage) :
    Drafting (serverPhase phase m) InOrder := by
  cases phase with
  | certificate => exact phase_drafting peerCertificate_idle fun _ => rfl
  | certificateVerify => exact phase_drafting peerCertificateVerify_idle fun _ => rfl
  | finished =>
    exact drafting_after (respects_throwIf _ _) fun _ => drafting_after (uncounted_of_idle peerFinished_idle) fun _ =>
      drafting_after finish_uncounted fun _ => drafting_pure rfl
  | clientHello | serverHello | encryptedExtensions | certificateRequest => exact drafting_throw _

/-! ## When a handler answers -/

section Later

variable {α β : Type} {w : HandshakeWorld} {Q : β → HandshakeWorld → Prop}

theorem ends_later {x : HandshakeM α} {f : α → HandshakeM β} (rest : ∀ a w', Ends (f a) w' Q fun _ _ => True) :
    Ends (x >>= f) w Q fun _ _ => True := by
  rw [ends_bind]
  unfold Ends
  split
  · exact rest _ _
  · trivial

end Later

/-- An answer of more than one message completes the handshake of a client. -/
def Brief (response : List HandshakeMessage) (w : HandshakeWorld) : Prop :=
  response.length ≤ 1 ∨ w.handshake.complete = true

private theorem finalFlight_brief (w : HandshakeWorld) : Ends finalFlight w Brief fun _ _ => True :=
  ends_later fun _ _ => ends_later fun _ _ => ends_later fun _ _ => ends_later fun _ w' =>
    ends_bind.mpr ((finish_ends w').mono (fun _ _ finished => .inr finished.1) fun _ _ _ => trivial)

private theorem serverHello_brief (w : HandshakeWorld) : Ends serverHello w Brief fun _ _ => True := by
  iterate 5 refine ends_later fun _ _ => ?_
  rw [ends_ite]
  split_ifs
  · iterate 6 refine ends_later fun _ _ => ?_
    exact .inl le_rfl
  · exact ends_later fun _ _ => .inl (Nat.zero_le 1)

private theorem clientPhase_brief (phase : Phase) (m : HandshakeMessage) (w : HandshakeWorld) :
    Ends (clientPhase phase m) w Brief fun _ _ => True := by
  have moves : ∀ {α : Type} {c : Prop} [Decidable c] {e : Err} {x : HandshakeM α} {change : Handshake → Handshake}
      (w : HandshakeWorld), Ends (do throwIf c e; let _ ← x; modifyHandshake change; return []) w Brief
        fun _ _ => True :=
    fun _ => ends_later fun _ _ => ends_later fun _ _ => ends_later fun _ _ => .inl (Nat.zero_le 1)
  cases phase with
  | encryptedExtensions | certificate | certificateVerify => exact moves w
  | certificateRequest =>
    unfold clientPhase
    rw [ends_ite]
    split_ifs
    · exact ends_later fun _ _ => ends_later fun _ _ => ends_later fun _ _ => ends_later fun _ _ =>
        .inl (Nat.zero_le 1)
    · exact moves w
  | finished => exact ends_later fun _ _ => ends_later fun _ _ => finalFlight_brief _
  | clientHello => exact trivial
  | serverHello => exact trivial

/-- A server answers the ClientHello only, and leaves that phase. -/
structure Passes (phase : Phase) (response : List HandshakeMessage) (w : HandshakeWorld) : Prop where
  once : response = [] ↔ phase ≠ .clientHello
  later : w.handshake.complete = true ∨ w.handshake.phase ≠ .clientHello

private theorem serverFlight_passes (offer : Offer) (w : HandshakeWorld) :
    Ends (serverFlight offer) w (Passes .clientHello) fun _ _ => True := by
  iterate 16 refine ends_later fun _ _ => ?_
  refine ends_bind.mpr (ends_modifyHandshake.mpr ⟨by simp, .inr ?_⟩)
  show (if _ then Phase.certificate else Phase.finished) ≠ Phase.clientHello
  split <;> simp

private theorem serverPhase_passes {phase : Phase} (past : phase ≠ .clientHello) (m : HandshakeMessage)
    (w : HandshakeWorld) :
    Ends (serverPhase phase m) w (Passes phase) fun _ _ => True := by
  cases phase with
  | certificate =>
    refine ends_later fun _ _ => ends_later fun _ w' =>
      ends_bind.mpr (ends_modifyHandshake.mpr ⟨⟨fun _ => past, fun _ => rfl⟩, .inr ?_⟩)
    show (if _ then Phase.finished else Phase.certificateVerify) ≠ Phase.clientHello
    split <;> simp
  | certificateVerify =>
    exact ends_later fun _ _ => ends_later fun _ _ =>
      ends_bind.mpr (ends_modifyHandshake.mpr ⟨⟨fun _ => past, fun _ => rfl⟩, .inr (by simp)⟩)
  | finished =>
    exact ends_later fun _ _ => ends_later fun _ w' => ends_bind.mpr
      ((finish_ends w').mono (fun _ _ finished => ⟨⟨fun _ => past, fun _ => rfl⟩, .inl finished.1⟩)
        fun _ _ _ => trivial)
  | clientHello => exact absurd rfl past
  | serverHello | encryptedExtensions | certificateRequest => exact trivial

theorem handle_brief {w : HandshakeWorld} (client : w.handshake.client = true) (m : HandshakeMessage) :
    Ends (handle m) w Brief fun _ _ => True := by
  unfold handle
  rw [ends_bind, ends_getHandshake, if_pos client]
  refine ends_later fun h _ => ends_later fun _ _ => ?_
  rw [ends_ite]
  split_ifs
  · exact ends_later fun _ _ => serverHello_brief _
  · exact ends_later fun _ _ => clientPhase_brief _ m _

theorem handle_passes {w : HandshakeWorld} (server : w.handshake.client = false) (m : HandshakeMessage) :
    Ends (handle m) w (Passes w.handshake.phase) fun _ _ => True := by
  unfold handle
  rw [ends_bind, ends_getHandshake, if_neg (by simp [server])]
  unfold serverHandle
  rw [ends_bind, ends_getHandshake]
  refine ends_later fun _ _ => ?_
  rw [ends_ite]
  split_ifs with first
  · rw [first]
    exact ends_later fun _ _ => ends_later fun _ _ => serverFlight_passes _ _
  · exact ends_later fun _ _ => serverPhase_passes first m _

/-- A handler numbers the messages it answers with, and no others. -/
theorem handle_drafting (m : HandshakeMessage) : Drafting (handle m) InOrder := by
  refine drafting_after getHandshake_uncounted fun _ => drafting_ite ?_ ?_
  · exact drafting_after getHandshake_uncounted fun _ => drafting_after (respects_throwIf _ _) fun _ => drafting_ite
      (drafting_after (respects_throwIf _ _) fun _ => serverHello_drafting)
      (drafting_after (respects_throwIf _ _) fun _ => clientPhase_drafting _ m)
  · exact drafting_after getHandshake_uncounted fun _ => drafting_after (respects_throwIf _ _) fun _ => drafting_ite
      (drafting_after (respects_throwIf _ _) fun _ =>
        drafting_after (fun _ => rfl) fun _ => serverFlight_drafting _)
      (drafting_after (respects_throwIf _ _) fun _ => serverPhase_drafting _ m)

end Socat.Dtls13
