import Socat.Dtls13.Soundness.ReassemblyBounds
import Socat.Machine.Transducer
import Socat.ToMathlib.Marks

/-! # What an honest peer's fragments are put together to

The peer splits its messages into fragments and the network loses, repeats and reorders the records that
carry them. Reassembly is compared with an ideal receiver, which only remembers which ranges were buffered:
it hands out the next message of the conversation once its ranges cover the body. An empty body has no byte
to cover, so at least one fragment must have come.
-/

namespace Socat.Dtls13

open Machine List Reassembler HandshakeMessage

/-! ## Conversations -/

/-- The messages of a peer, in the order of their sequences. -/
structure Conversation where
  first : ℕ
  messages : List HandshakeMessage
  consecutive : ∀ i : Fin messages.length, (messages.get i).sequence = first + i
  words : first + messages.length ≤ 65536
  small : ∀ m ∈ messages, m.body.length ≤ maxHandshakeBody

namespace Conversation

variable (c : Conversation)

def message (i : Fin c.messages.length) : HandshakeMessage := c.messages.get i

theorem message_sequence (i : Fin c.messages.length) : (c.message i).sequence = c.first + i := c.consecutive i

theorem message_small (i : Fin c.messages.length) : (c.message i).body.length ≤ maxHandshakeBody :=
  c.small _ (c.messages.get_mem i)

theorem message_word (i : Fin c.messages.length) : (c.message i).sequence < 65536 := by
  have words := c.words
  have below := i.isLt
  rw [c.message_sequence i]
  omega

/-- A range of the body of one message. -/
structure Piece where
  index : Fin c.messages.length
  offset : ℕ
  length : ℕ
  inside : offset + length ≤ (c.message index).body.length

variable {c}

namespace Piece

def fragment (p : c.Piece) : HandshakeFragment := (c.message p.index).part p.offset p.length

/-- The bytes the sender's `fragment` gives for the range. -/
def bytes (p : c.Piece) : Bytes := ((c.message p.index).fragment p.offset p.length).toOption.getD []

theorem bytes_parsed (p : c.Piece) :
    (c.message p.index).fragment p.offset p.length = .ok p.bytes ∧ p.bytes ≠ [] ∧
      ∀ rest, parseFragment (p.bytes ++ rest) = .ok (p.fragment, rest) := by
  obtain ⟨bytes, sent, nonempty, parsed⟩ :=
    fragment_parsed (c.message_small p.index) (c.message_word p.index) p.inside
  have same : p.bytes = bytes := by
    rw [Piece.bytes, sent]
    rfl
  rw [same]
  exact ⟨sent, nonempty, parsed⟩

theorem fragment_sequence (p : c.Piece) : p.fragment.sequence = c.first + p.index := c.message_sequence p.index

theorem fragment_length (p : c.Piece) : p.fragment.body.length = p.length := part_length p.inside

end Piece

variable (c) in
/-- A record carries fragments of messages of its epoch. -/
structure Carrier where
  epoch : ℕ
  pieces : List c.Piece
  nonempty : pieces ≠ []
  same : ∀ p ∈ pieces, (c.message p.index).epoch = epoch

def Carrier.data (record : c.Carrier) : Bytes := (record.pieces.map Piece.bytes).flatten

/-! ## The ideal receiver -/

/-- What became of a fragment: its message was popped before, or its bytes are in the entry of its message
now, or it was dropped. -/
inductive Verdict
  | processed
  | buffered
  | refused
deriving DecidableEq, Repr

variable (c) in
inductive Event
  | added (judged : List (c.Piece × Verdict)) (answer : Except Err Bool)
  | popped (m : HandshakeMessage)
  | waiting

variable (c) in
/-- The receiver remembers how many messages it has handed out and every range it has buffered. -/
structure Ideal where
  popped : ℕ := 0
  held : List c.Piece := []

namespace Ideal

/-- Some fragment of the message is buffered. -/
def Touched (s : c.Ideal) (i : Fin c.messages.length) : Prop := ∃ p ∈ s.held, p.index = i

/-- A buffered fragment covers the byte. -/
def Covered (s : c.Ideal) (i : Fin c.messages.length) (byte : ℕ) : Prop :=
  ∃ p ∈ s.held, p.index = i ∧ p.offset ≤ byte ∧ byte < p.offset + p.length

/-- Buffered fragments cover the whole message. -/
def Complete (s : c.Ideal) (i : Fin c.messages.length) : Prop :=
  s.Touched i ∧ ∀ byte < (c.message i).body.length, s.Covered i byte

/-- The receiver after a record with these verdicts. -/
def absorb (s : c.Ideal) (judged : List (c.Piece × Verdict)) : c.Ideal :=
  { s with held := s.held ++ (judged.filter fun entry => entry.2 = .buffered).map Prod.fst }

inductive Step : c.Ideal → c.Event → c.Ideal → Prop
  | added {s : c.Ideal} {judged : List (c.Piece × Verdict)} :
      (∀ entry ∈ judged, entry.2 = .processed ↔ entry.1.index < s.popped) →
      Step s (.added judged (.ok (judged.all fun entry => entry.2 ≠ .refused))) (s.absorb judged)
  | popped {s : c.Ideal} {i : Fin c.messages.length} : s.popped = i → s.Complete i →
      Step s (.popped (c.message i)) { s with popped := s.popped + 1 }
  | waiting {s : c.Ideal} : (∀ i : Fin c.messages.length, s.popped = i → ¬s.Complete i) → Step s .waiting s

end Ideal

/-- The messages handed out in a run. -/
def delivered (events : List c.Event) : List HandshakeMessage :=
  events.filterMap fun
    | .popped m => some m
    | _ => none

/-- The ideal receiver hands out the conversation in order. -/
theorem Ideal.delivered_eq {s t : c.Ideal} {events : List c.Event} (path : Path Ideal.Step s events t) :
    c.messages.take s.popped ++ delivered events = c.messages.take t.popped := by
  induction path with
  | nil s => simp [delivered]
  | @cons s mid t event rest taken _ ih =>
    cases taken with
    | added _ => exact ih
    | waiting _ => exact ih
    | @popped i here _ =>
      rw [← ih]
      have next : c.messages.take (s.popped + 1) = c.messages.take s.popped ++ [c.message i] := by
        rw [here, take_succ_eq_append_getElem i.isLt]
        rfl
      show _ ++ (c.message i :: delivered rest) = c.messages.take (s.popped + 1) ++ delivered rest
      rw [next, append_assoc]
      rfl

/-! ## The reassembler, observed -/

end Conversation

/-- The bytes of the fragment are in the entry of its message. -/
def Reassembler.holds (r : Reassembler) (f : HandshakeFragment) : Bool :=
  match r.pending.lookup f.sequence with
  | none => false
  | some q => (List.range f.body.length).all fun i =>
      q.seen.getD (f.offset + i) false && q.message.body.getD (f.offset + i) 0 == f.body.getD i 0

namespace Conversation

variable {c : Conversation} {β : Type*} [Budget β]

def judge (before after : Reassembler) (p : c.Piece) : Verdict :=
  if p.fragment.sequence < before.next then .processed else if after.holds p.fragment then .buffered else .refused

/-- The verdicts on the fragments of a record, each taken when it was inserted. -/
def judgeAll : List c.Piece → Reassembler → β → ℕ → List (c.Piece × Verdict)
  | [], _, _, _ => []
  | p :: rest, r, budget, epoch =>
    let (_, r', budget) := r.insert budget p.fragment epoch
    (p, judge r r' p) :: judgeAll rest r' budget epoch

variable (c) in
inductive Call
  | add (record : c.Carrier)
  | pop

/-- A call of the reassembler, and what can be seen of it. -/
def observe (state : Reassembler × β) : c.Call → c.Event × (Reassembler × β)
  | .add record =>
    let (answer, after) := state.1.add state.2 record.data record.epoch
    (.added (judgeAll record.pieces state.1 state.2 record.epoch) answer, after)
  | .pop =>
    let (message, after) := state.1.pop state.2
    (message.elim .waiting .popped, after)

end Conversation

/-! ## Entries of honest messages -/

/-- The entry has the bytes of a message that are marked, and those are the covered ones. -/
structure PartialHandshake.Agrees (q : PartialHandshake) (m : HandshakeMessage) (covered : ℕ → Prop) : Prop where
  typ : q.message.typ = m.typ
  sequence : q.message.sequence = m.sequence
  epoch : q.message.epoch = m.epoch
  length : q.message.body.length = m.body.length
  marks : q.seen.length = m.body.length
  seen : ∀ byte < m.body.length, q.seen.getD byte false = true ↔ covered byte
  bytes : ∀ byte < m.body.length, q.seen.getD byte false = true → q.message.body.getD byte 0 = m.body.getD byte 0

namespace PartialHandshake

variable {q : PartialHandshake} {m : HandshakeMessage} {covered covered' : ℕ → Prop}

theorem Agrees.congr (agrees : q.Agrees m covered) (same : ∀ byte < m.body.length, covered byte ↔ covered' byte) :
    q.Agrees m covered' :=
  { agrees with seen := fun byte below => (agrees.seen byte below).trans (same byte below) }

private theorem start_agrees (m : HandshakeMessage) (offset length : ℕ) :
    (start (m.part offset length) m.epoch).Agrees m fun _ => False where
  typ := rfl
  sequence := rfl
  epoch := rfl
  length := by simp [start, part]
  marks := by simp [start, part]
  seen := by
    intro byte below
    simp [start]
  bytes := by
    intro byte below seen
    simp [start] at seen

theorem Agrees.put (agrees : q.Agrees m covered) (position : ℕ) :
    (q.put position (m.body.getD position 0)).Agrees m fun byte => covered byte ∨ byte = position := by
  have marked : ∀ byte, (q.put position (m.body.getD position 0)).seen.getD byte false =
      if position = byte ∧ byte < q.seen.length then true else q.seen.getD byte false := fun _ => getD_set_eq _ _ _ _ _
  refine ⟨agrees.typ, agrees.sequence, agrees.epoch, ?_, ?_, fun byte below => ?_, fun byte below seen => ?_⟩
  · simp [PartialHandshake.put, agrees.length]
  · simp [PartialHandshake.put, agrees.marks]
  · rw [marked, ← agrees.seen byte below, agrees.marks]
    by_cases same : position = byte
    · simp [same, below]
    · simp [same, Ne.symm same]
  · have stored : (q.put position (m.body.getD position 0)).message.body.getD byte 0 =
        if position = byte ∧ byte < q.message.body.length then m.body.getD position 0
        else q.message.body.getD byte 0 := getD_set_eq _ _ _ _ _
    rw [stored, agrees.length]
    rw [marked, agrees.marks] at seen
    by_cases same : position = byte
    · simp [same, below]
    · rw [if_neg (fun both => same both.1)] at seen ⊢
      exact agrees.bytes byte below seen

/-- Bytes of the message itself never conflict with what is stored. -/
theorem Agrees.store (agrees : q.Agrees m covered) {bytes : Bytes} {position : ℕ}
    (inside : position + bytes.length ≤ m.body.length)
    (slice : ∀ i < bytes.length, bytes.getD i 0 = m.body.getD (position + i) 0) :
    (q.store position bytes).1 = true ∧
      (q.store position bytes).2.Agrees m fun byte =>
        covered byte ∨ position ≤ byte ∧ byte < position + bytes.length := by
  induction bytes generalizing q position covered with
  | nil =>
    refine ⟨rfl, agrees.congr ?_⟩
    intro byte _
    constructor
    · exact .inl
    · rintro (old | new)
      · exact old
      · rw [length_nil] at new
        omega
  | cons byte rest ih =>
    rw [length_cons] at inside slice ⊢
    have first : byte = m.body.getD position 0 := slice 0 (by omega)
    have tail : ∀ i < rest.length, rest.getD i 0 = m.body.getD (position + 1 + i) 0 := by
      intro i below
      have shifted := slice (i + 1) (by omega)
      rwa [getD_cons_succ, show position + (i + 1) = position + 1 + i by omega] at shifted
    unfold PartialHandshake.store
    by_cases seen : q.seen.getD position false = true
    · have present := (agrees.seen position (by omega)).mp seen
      rw [if_pos seen, if_pos ((agrees.bytes position (by omega) seen).trans first.symm)]
      obtain ⟨accepted, after⟩ := ih agrees (by omega) tail
      refine ⟨accepted, after.congr ?_⟩
      intro i below
      constructor
      · rintro (old | new)
        · exact .inl old
        · exact .inr (by omega)
      · rintro (old | new)
        · exact .inl old
        · rcases Nat.eq_or_lt_of_le new.1 with rfl | later
          · exact .inl present
          · exact .inr (by omega)
    · rw [if_neg seen, first]
      obtain ⟨accepted, after⟩ := ih (agrees.put position) (by omega) tail
      refine ⟨accepted, after.congr ?_⟩
      intro i below
      constructor
      · rintro ((old | rfl) | new)
        · exact .inl old
        · exact .inr (by omega)
        · exact .inr (by omega)
      · rintro (old | new)
        · exact .inl (.inl old)
        · rcases Nat.eq_or_lt_of_le new.1 with rfl | later
          · exact .inl (.inr rfl)
          · exact .inr (by omega)

/-- A full entry is the message. -/
theorem Agrees.message_eq (agrees : q.Agrees m covered) (full : ∀ byte < m.body.length, covered byte) :
    q.message = m := by
  have body : q.message.body = m.body := by
    apply ext_getElem agrees.length
    intro byte below below'
    have same := agrees.bytes byte below' ((agrees.seen byte below').mpr (full byte below'))
    rwa [getD_eq_getElem _ _ below, getD_eq_getElem _ _ below'] at same
  obtain ⟨⟨typ, sequence, epoch, stored⟩, seen, remaining⟩ := q
  obtain ⟨typ', sequence', epoch', body'⟩ := m
  simp only [HandshakeMessage.mk.injEq]
  exact ⟨agrees.typ, agrees.sequence, agrees.epoch, body⟩

end PartialHandshake

/-! ## The simulation -/

variable {q : PartialHandshake} {buffered : ℕ}

namespace Conversation

variable {c : Conversation} {β : Type*} [Budget β]

/-- The state of the reassembler represents that of the ideal receiver. -/
structure Ideal.Follows (s : c.Ideal) (r : Reassembler) : Prop where
  next : r.next = c.first + s.popped
  popped : s.popped ≤ c.messages.length
  sound : r.Sound
  touched : ∀ i : Fin c.messages.length, s.popped ≤ i → s.Touched i → ∃ q, r.pending.lookup (c.first + i) = some q
  entries : r.Entries fun sequence q => ∃ i : Fin c.messages.length, sequence = c.first + i ∧ s.Touched i ∧
    q.Agrees (c.message i) (s.Covered i)

private theorem start_follows (c : Conversation) : ({} : c.Ideal).Follows { next := c.first } where
  next := rfl
  popped := Nat.zero_le _
  sound := sound_empty (le_trans (Nat.le_add_right _ _) c.words)
  touched := by
    rintro i _ ⟨p, held, _⟩
    cases held
  entries := by
    intro sequence q found
    cases found

namespace Ideal

variable {s : c.Ideal} {r : Reassembler}

/-- The receiver after one more fragment was buffered. -/
def hold (s : c.Ideal) (p : c.Piece) : c.Ideal := { s with held := s.held ++ [p] }

theorem exists_held_hold {P : c.Piece → Prop} {p : c.Piece} :
    (∃ q ∈ (s.hold p).held, P q) ↔ (∃ q ∈ s.held, P q) ∨ P p := by
  simp only [hold, mem_append, mem_singleton]
  constructor
  · rintro ⟨q, held | rfl, same⟩
    · exact .inl ⟨q, held, same⟩
    · exact .inr same
  · rintro (⟨q, held, same⟩ | same)
    · exact ⟨q, .inl held, same⟩
    · exact ⟨p, .inr rfl, same⟩

private theorem touched_hold {p : c.Piece} {i : Fin c.messages.length} :
    (s.hold p).Touched i ↔ s.Touched i ∨ p.index = i := exists_held_hold

private theorem covered_hold {p : c.Piece} {i : Fin c.messages.length} {byte : ℕ} :
    (s.hold p).Covered i byte ↔ s.Covered i byte ∨ p.index = i ∧ p.offset ≤ byte ∧ byte < p.offset + p.length :=
  exists_held_hold

theorem Follows.lookup (follows : s.Follows r) {i : Fin c.messages.length}
    (found : r.pending.lookup (c.first + i) = some q) : s.Touched i ∧ q.Agrees (c.message i) (s.Covered i) := by
  obtain ⟨j, same, touched, agrees⟩ := follows.entries _ _ found
  obtain rfl : i = j := Fin.ext (by omega)
  exact ⟨touched, agrees⟩

/-- The reassembler with a fragment copied into an entry. -/
abbrev grown (r : Reassembler) (q : PartialHandshake) (f : HandshakeFragment) (buffered : ℕ) : Reassembler :=
  { r with pending := r.pending.insert f.sequence (q.store f.offset f.body).2, buffered }

/-- A piece goes into the entry of its message, old or new. -/
theorem Follows.hold (follows : s.Follows r) (p : c.Piece) {before : ℕ → Prop}
    (agrees : q.Agrees (c.message p.index) before) (same : ∀ byte, before byte ↔ s.Covered p.index byte)
    (sound : (grown r q p.fragment buffered).Sound) :
    (q.store p.fragment.offset p.fragment.body).1 = true ∧ (s.hold p).Follows (grown r q p.fragment buffered) := by
  have size := p.fragment_length
  have sequence := p.fragment_sequence
  have inside : p.fragment.offset + p.fragment.body.length ≤ (c.message p.index).body.length := by
    rw [size]
    exact p.inside
  have slice : ∀ i < p.fragment.body.length,
      p.fragment.body.getD i 0 = (c.message p.index).body.getD (p.fragment.offset + i) 0 := by
    intro i below
    exact part_getD (size ▸ below)
  obtain ⟨accepted, after⟩ := agrees.store inside slice
  refine ⟨accepted, follows.next, follows.popped, sound, ?_, ?_⟩
  · intro i left touched
    show ∃ q, (r.pending.insert _ _).lookup _ = some q
    rw [AList.lookup_insert_eq]
    split
    · exact ⟨_, rfl⟩
    · rename_i different
      rcases touched_hold.mp touched with earlier | rfl
      · exact follows.touched i left earlier
      · exact absurd sequence.symm different
  · intro other q' found
    rw [AList.lookup_insert_eq] at found
    split at found
    · rename_i here
      cases found
      refine ⟨p.index, here.trans sequence, touched_hold.mpr (.inr rfl), after.congr ?_⟩
      intro byte below
      rw [covered_hold, same byte, size]
      simp [Piece.fragment, part]
    · rename_i different
      obtain ⟨i, rfl, touched, agrees⟩ := follows.entries other q' found
      refine ⟨i, rfl, touched_hold.mpr (.inl touched), agrees.congr ?_⟩
      intro byte below
      rw [covered_hold]
      have distinct : p.index ≠ i := by
        rintro rfl
        exact different sequence.symm
      simp [distinct]

/-- The bytes of a buffered piece are in the entry of its message. -/
theorem Follows.holds (follows : s.Follows r) {p : c.Piece} (held : p ∈ s.held) (left : s.popped ≤ p.index) :
    r.holds p.fragment = true := by
  have sequence := p.fragment_sequence
  obtain ⟨q, found⟩ := follows.touched p.index left ⟨p, held, rfl⟩
  obtain ⟨-, agrees⟩ := follows.lookup found
  unfold Reassembler.holds
  rw [sequence, found]
  simp only [all_eq_true, mem_range, Bool.and_eq_true, beq_iff_eq]
  intro i below
  rw [p.fragment_length] at below
  have inside := p.inside
  have covered : s.Covered p.index (p.offset + i) := ⟨p, held, rfl, by omega, by omega⟩
  have seen := (agrees.seen _ (by omega)).mpr covered
  refine ⟨seen, (agrees.bytes _ (by omega) seen).trans ?_⟩
  exact (part_getD below).symm

/-- The ideal receiver's view of one verdict. -/
def judged (s : c.Ideal) (p : c.Piece) : Verdict → c.Ideal
  | .buffered => s.hold p
  | _ => s

private theorem judged_popped (s : c.Ideal) (p : c.Piece) (verdict : Verdict) :
    (s.judged p verdict).popped = s.popped := by
  cases verdict <;> rfl

private theorem absorb_nil (s : c.Ideal) : s.absorb [] = s := by
  simp [absorb]

private theorem absorb_cons (s : c.Ideal) (p : c.Piece) (verdict : Verdict) (rest : List (c.Piece × Verdict)) :
    s.absorb ((p, verdict) :: rest) = (s.judged p verdict).absorb rest := by
  cases verdict <;> simp [absorb, judged, hold]

/-- The answer to a fragment and the state after it reflect the verdict on it. -/
structure Reflects (s : c.Ideal) (r : Reassembler) (p : c.Piece) (answer : Except Err Bool) (r' : Reassembler) :
    Prop where
  answer : answer = .ok (judge r r' p ≠ .refused)
  processed : judge r r' p = .processed ↔ p.index < s.popped
  follows : (s.judged p (judge r r' p)).Follows r'

theorem Reflects.of_verdict {p : c.Piece} {answer : Except Err Bool} {r' : Reassembler} (verdict : Verdict)
    (judgement : judge r r' p = verdict) (told : answer = .ok (verdict ≠ .refused))
    (past : verdict = .processed ↔ p.index < s.popped) (after : (s.judged p verdict).Follows r') :
    s.Reflects r p answer r' := by
  subst judgement
  exact ⟨told, past, after⟩

theorem Follows.processed (follows : s.Follows r) {p : c.Piece} (past : p.fragment.sequence < r.next) :
    s.Reflects r p (.ok true) r := by
  have sequence := p.fragment_sequence
  have next := follows.next
  have old : p.index < s.popped := by omega
  exact .of_verdict .processed (if_pos past) rfl (iff_of_true rfl old) follows

/-- A fragment that is dropped leaves no entry of its message. -/
theorem Follows.dropped (follows : s.Follows r) {p : c.Piece} (ahead : r.next ≤ p.fragment.sequence)
    (absent : r.pending.lookup p.fragment.sequence = none) : s.Reflects r p (.ok false) r := by
  have sequence := p.fragment_sequence
  have next := follows.next
  have missing : r.holds p.fragment = false := by
    unfold Reassembler.holds
    rw [absent]
  have verdict : judge r r p = .refused := by
    unfold judge
    rw [if_neg (not_lt.mpr ahead), missing]
    rfl
  have current : ¬p.index < s.popped := by omega
  exact .of_verdict .refused verdict rfl (iff_of_false (by decide) current) follows

theorem Follows.kept (follows : s.Follows r) {p : c.Piece} {before : ℕ → Prop}
    (ahead : r.next ≤ p.fragment.sequence) (agrees : q.Agrees (c.message p.index) before)
    (same : ∀ byte, before byte ↔ s.Covered p.index byte) (sound : (grown r q p.fragment buffered).Sound) :
    s.Reflects r p (copied q p.fragment) (grown r q p.fragment buffered) := by
  have sequence := p.fragment_sequence
  have next := follows.next
  obtain ⟨accepted, after⟩ := follows.hold p agrees same sound
  have current : ¬p.index < s.popped := by omega
  have held : p ∈ (s.hold p).held := mem_append_right _ (mem_singleton.mpr rfl)
  have present := after.holds held (not_lt.mp current)
  apply Reflects.of_verdict .buffered
  · unfold judge
    rw [if_neg (not_lt.mpr ahead), present]
    rfl
  · unfold copied
    rw [accepted]
    rfl
  · exact iff_of_false (by decide) current
  · exact after

/-- One fragment of an honest record is never an error. -/
theorem Follows.insert (follows : s.Follows r) (budget : β) (p : c.Piece) :
    s.Reflects r p (r.insert budget p.fragment (c.message p.index).epoch).1
      (r.insert budget p.fragment (c.message p.index).epoch).2.1 := by
  have sequence := p.fragment_sequence
  have next := follows.next
  have inside : p.fragment.offset + p.fragment.body.length ≤ p.fragment.total := by
    rw [p.fragment_length]
    exact p.inside
  refine insert_cases (P := fun answer r' _ => r'.Sound → s.Reflects r p answer r') (fun inserted sound => ?_)
    (follows.sound.insert inside (c.message_word p.index) budget (c.message p.index).epoch)
  cases inserted with
  | old past => exact follows.processed past
  | beyond far =>
    apply follows.dropped (by omega)
    cases found : r.pending.lookup p.fragment.sequence with
    | none => rfl
    | some q =>
      have window := follows.sound.window _ _ found
      omega
  | large _ large => exact absurd (c.message_small p.index) (not_le.mpr large)
  | conflict _ found differs =>
    rw [sequence] at found
    obtain ⟨-, agrees⟩ := follows.lookup found
    exact absurd ⟨agrees.typ, agrees.epoch, agrees.length⟩ differs
  | crowded expected _ absent _ _ | exhausted expected _ absent _ _ => exact follows.dropped expected.from_next absent
  | stored expected _ found _ =>
    obtain ⟨-, agrees⟩ := follows.lookup (sequence ▸ found)
    exact follows.kept expected.from_next agrees (fun _ => Iff.rfl) sound
  | started expected _ absent _ _ =>
    apply follows.kept expected.from_next (PartialHandshake.start_agrees _ _ _) _ sound
    intro byte
    rw [false_iff]
    rintro ⟨q, held, same, -⟩
    have ahead := expected.from_next
    obtain ⟨entry, found⟩ := follows.touched p.index (by omega) ⟨q, held, same⟩
    rw [sequence, found] at absent
    cases absent

/-- The answer to a record and the state after it reflect the verdicts on its fragments. -/
structure Answers (s : c.Ideal) (judged : List (c.Piece × Verdict)) (accepted : Bool) (answer : Except Err Bool)
    (r' : Reassembler) : Prop where
  answer : answer = .ok (accepted && judged.all fun entry => entry.2 ≠ .refused)
  processed : ∀ entry ∈ judged, entry.2 = .processed ↔ entry.1.index < s.popped
  follows : (s.absorb judged).Follows r'

/-- The loop over an honest record. -/
theorem Follows.addLoop {pieces : List c.Piece} {epoch fuel : ℕ} {accepted : Bool} (follows : s.Follows r)
    (budget : β) (same : ∀ p ∈ pieces, (c.message p.index).epoch = epoch)
    (enough : (pieces.map Piece.bytes).flatten.length ≤ fuel) :
    s.Answers (judgeAll pieces r budget epoch) accepted
      (addLoop fuel r budget (pieces.map Piece.bytes).flatten epoch accepted).1
      (addLoop fuel r budget (pieces.map Piece.bytes).flatten epoch accepted).2.1 := by
  induction pieces generalizing s r budget fuel accepted with
  | nil =>
    have ended : addLoop fuel r budget [] epoch accepted = (.ok accepted, r, budget) := by
      cases fuel <;> rfl
    rw [map_nil, flatten_nil, ended]
    constructor
    · simp [judgeAll]
    · simp [judgeAll]
    · rw [judgeAll, absorb_nil]
      exact follows
  | cons p rest ih =>
    obtain ⟨-, nonempty, parsed⟩ := p.bytes_parsed
    rw [forall_mem_cons] at same
    obtain ⟨epochs, same⟩ := same
    rw [map_cons, flatten_cons] at enough ⊢
    rw [length_append] at enough
    have some := length_pos_of_ne_nil nonempty
    obtain ⟨fuel, rfl⟩ : ∃ less, fuel = less + 1 := ⟨fuel - 1, by omega⟩
    have first := follows.insert budget p
    rw [epochs] at first
    rw [addLoop_succ, if_neg (by simp [nonempty]), parsed]
    dsimp only
    rcases outcome : r.insert budget p.fragment epoch with ⟨answer, r', budget'⟩
    rw [outcome] at first
    change s.Reflects r p answer r' at first
    obtain ⟨told, past, after⟩ := first
    subst told
    have less : (rest.map Piece.bytes).flatten.length ≤ fuel := by omega
    have later : (s.judged p (judge r r' p)).Answers _ (accepted && judge r r' p ≠ .refused) _ _ :=
      ih after budget' same less
    have judged : judgeAll (p :: rest) r budget epoch = (p, judge r r' p) :: judgeAll rest r' budget' epoch := by
      rw [judgeAll, outcome]
    rw [judged]
    constructor
    · rw [later.answer, all_cons, Bool.and_assoc]
    · rw [forall_mem_cons]
      refine ⟨past, fun entry member => ?_⟩
      rw [← judged_popped s p (judge r r' p)]
      exact later.processed entry member
    · rw [absorb_cons]
      exact later.follows

theorem Follows.add (follows : s.Follows r) (budget : β) (record : c.Carrier) :
    s.Answers (judgeAll record.pieces r budget record.epoch) true (r.add budget record.data record.epoch).1
      (r.add budget record.data record.epoch).2.1 := by
  have nonempty : record.data ≠ [] := by
    unfold Carrier.data
    rcases listed : record.pieces with _ | ⟨p, rest⟩
    · exact absurd listed record.nonempty
    · rw [map_cons, flatten_cons]
      exact append_ne_nil_of_left_ne_nil p.bytes_parsed.2.1 _
  unfold Reassembler.add
  rw [if_neg nonempty]
  exact follows.addLoop budget record.same le_rfl

/-- The entry at the head is that of the next message, and is full when the message is complete. -/
theorem Follows.head (follows : s.Follows r) (found : r.pending.lookup r.next = some q) :
    ∃ i : Fin c.messages.length, s.popped = i ∧ q.Agrees (c.message i) (s.Covered i) ∧
      (q.remaining = 0 ↔ s.Complete i) := by
  have next := follows.next
  obtain ⟨i, here, touched, agrees⟩ := follows.entries _ _ found
  obtain ⟨counted, -⟩ := follows.sound.entries _ _ found
  refine ⟨i, by omega, agrees, ?_⟩
  rw [counted.remaining, count_false_eq_zero, agrees.marks]
  constructor
  · intro all
    exact ⟨touched, fun byte below => (agrees.seen byte below).mp (all byte below)⟩
  · intro complete byte below
    exact (agrees.seen byte below).mpr (complete.2 byte below)

/-- The head leaves. -/
theorem Follows.advance (follows : s.Follows r) (left : s.popped < c.messages.length)
    (sound : (⟨r.next + 1, r.pending.erase r.next, buffered⟩ : Reassembler).Sound) :
    ({ s with popped := s.popped + 1 } : c.Ideal).Follows ⟨r.next + 1, r.pending.erase r.next, buffered⟩ := by
  have next := follows.next
  constructor
  · show r.next + 1 = c.first + (s.popped + 1)
    omega
  · exact left
  · exact sound
  · intro i later touched
    change s.popped + 1 ≤ i at later
    show ∃ q, (r.pending.erase r.next).lookup (c.first + i) = some q
    rw [AList.lookup_erase_eq, if_neg (by omega)]
    exact follows.touched i (by omega) touched
  · intro sequence q found
    rw [AList.lookup_erase_eq] at found
    split at found
    · cases found
    · exact follows.entries sequence q found

/-- The next message comes out when it is complete. -/
theorem Follows.pop (follows : s.Follows r) (budget : β) :
    ∃ t, Ideal.Step s ((r.pop budget).1.elim .waiting .popped) t ∧ t.Follows (r.pop budget).2.1 := by
  have next := follows.next
  have words := c.words
  have sound := follows.sound.pop budget
  revert sound
  unfold Reassembler.pop
  split_ifs with last
  · intro _
    refine ⟨s, .waiting ?_, follows⟩
    intro i here
    have below := i.isLt
    omega
  cases found : r.pending.lookup r.next with
  | none =>
    intro _
    refine ⟨s, .waiting ?_, follows⟩
    intro i here complete
    obtain ⟨q, present⟩ := follows.touched i here.le complete.1
    rw [← here, ← next, found] at present
    cases present
  | some q =>
    obtain ⟨i, here, agrees, full⟩ := follows.head found
    dsimp only
    split_ifs with unfinished
    · intro _
      refine ⟨s, .waiting ?_, follows⟩
      intro j there complete
      obtain rfl : i = j := Fin.ext (by omega)
      exact unfinished (full.mpr complete)
    · intro sound
      have complete := full.mp (not_not.mp unfinished)
      refine ⟨{ s with popped := s.popped + 1 }, ?_, follows.advance (here ▸ i.isLt) sound⟩
      show Step s (.popped q.message) _
      rw [agrees.message_eq complete.2]
      exact .popped here complete

end Ideal

/-- Whatever an honest peer's records suffer on their way, and whenever messages are asked for, the reassembler
answers as the ideal receiver does: no record is an error, a record is accepted when all its fragments were
buffered or processed before, and the messages come out in order, unchanged, each as soon as a fragment of it
came and every byte is covered. -/
theorem reassembly_refines (c : Conversation) (budget : β) (calls : List c.Call) :
    ∃ final : c.Ideal, Path Ideal.Step {}
      (transduce observe (({ next := c.first } : Reassembler), budget) calls).1 final ∧
      delivered (transduce observe (({ next := c.first } : Reassembler), budget) calls).1 =
        c.messages.take final.popped := by
  have simulates : ∀ (state : Reassembler × β) (s : c.Ideal) (call : c.Call), s.Follows state.1 →
      ∃ t, Ideal.Step s (observe state call).1 t ∧ t.Follows (observe state call).2.1 := by
    intro state s call follows
    cases call with
    | add record =>
      have answers := follows.add state.2 record
      refine ⟨s.absorb (judgeAll record.pieces state.1 state.2 record.epoch), ?_, answers.follows⟩
      have told := answers.answer
      rw [Bool.true_and] at told
      show Ideal.Step s (.added _ (state.1.add state.2 record.data record.epoch).1) _
      rw [told]
      exact .added answers.processed
    | pop => exact follows.pop state.2
  have started : ({} : c.Ideal).Follows (({ next := c.first } : Reassembler), budget).1 := start_follows c
  obtain ⟨final, path, -⟩ := transduce_refines (R := fun (state : Reassembler × β) (s : c.Ideal) => s.Follows state.1)
    simulates started calls
  refine ⟨final, path, ?_⟩
  have handed := Ideal.delivered_eq path
  rwa [take_zero, nil_append] at handed

/-- A conversation of one message without a body. -/
def blank : Conversation where
  first := 0
  messages := [⟨20, 0, 0, []⟩]
  consecutive := by decide
  words := by decide
  small := by decide

/-- An empty message has no byte that could be missing, and still waits for a fragment; a record without a
fragment is an error. -/
theorem blank_waits :
    (∀ (i : Fin blank.messages.length), ∀ byte < (blank.message i).body.length, ({} : blank.Ideal).Covered i byte) ∧
      (({ next := blank.first } : Reassembler).pop (none : Option MemoryBudget)).1 = none ∧
      (({ next := blank.first } : Reassembler).add (none : Option MemoryBudget) [] 0).1 = .error .decode := by
  refine ⟨?_, by decide, by decide⟩
  intro i byte below
  have empty : ∀ i : Fin blank.messages.length, (blank.message i).body.length = 0 := by decide
  exact absurd (empty i ▸ below) (Nat.not_lt_zero byte)

end Conversation

end Socat.Dtls13
