import Socat.Dtls13.Model.Fragment
import Socat.Dtls13.Model.Layout
import Socat.ToMathlib.Except
import Socat.ToMathlib.FiniteMap

/-! # What the reassembler holds

`Inserted` says once what the insertion of a fragment can do. Two invariant rules carry every statement
about reassembly: what survives the insertion of each fragment survives a record (`add_invariant`), and
what holds of an entry when it starts, and survives the storing of a fragment, holds of all entries
(`add_entries`).
-/

namespace Socat.Dtls13

open List

/-! ## Entries -/

namespace PartialHandshake

variable {p q : PartialHandshake}

/-- The entry describes the same message and has lost no byte. -/
structure Extends (p q : PartialHandshake) : Prop where
  typ : q.message.typ = p.message.typ
  sequence : q.message.sequence = p.message.sequence
  epoch : q.message.epoch = p.message.epoch
  length : q.message.body.length = p.message.body.length
  marks : q.seen.length = p.seen.length
  seen : ∀ i, p.seen.getD i false = true → q.seen.getD i false = true

theorem Extends.refl (p : PartialHandshake) : Extends p p := ⟨rfl, rfl, rfl, rfl, rfl, fun _ => id⟩

theorem Extends.trans {r : PartialHandshake} (first : Extends p q) (second : Extends q r) : Extends p r where
  typ := second.typ.trans first.typ
  sequence := second.sequence.trans first.sequence
  epoch := second.epoch.trans first.epoch
  length := second.length.trans first.length
  marks := second.marks.trans first.marks
  seen i marked := second.seen i (first.seen i marked)

theorem put_extends (p : PartialHandshake) (position : ℕ) (byte : UInt8) : Extends p (p.put position byte) where
  typ := rfl
  sequence := rfl
  epoch := rfl
  length := by simp [put]
  marks := by simp [put]
  seen i marked := by
    by_cases same : position = i
    · subst same
      by_cases inside : position < p.seen.length
      · simp [put, getD_eq_getElem?_getD, inside]
      · simp [getD_eq_getElem?_getD, inside] at marked
    · simpa [put, getD_eq_getElem?_getD, getElem?_set_ne same] using marked

theorem store_extends (bytes : Bytes) (p : PartialHandshake) (position : ℕ) :
    Extends p (p.store position bytes).2 := by
  induction bytes generalizing p position with
  | nil => exact .refl p
  | cons byte rest ih =>
    unfold store
    split
    · split
      · exact ih p (position + 1)
      · exact .refl p
    · exact (put_extends p position byte).trans (ih _ (position + 1))

end PartialHandshake

/-! ## Fragments of a record -/

/-- The fragments in the body of a record, up to the first malformed one. -/
def fragmentLoop : ℕ → Bytes → List HandshakeFragment
  | 0, _ => []
  | fuel + 1, data =>
    if data = [] then []
    else
      match parseFragment data with
      | .error _ => []
      | .ok (f, rest) => f :: fragmentLoop fuel rest

def fragments (data : Bytes) : List HandshakeFragment := fragmentLoop data.length data

private theorem fragmentLoop_zero (data : Bytes) : fragmentLoop 0 data = [] := (rfl)

theorem fragmentLoop_succ (fuel : ℕ) (data : Bytes) : fragmentLoop (fuel + 1) data =
    if data = [] then []
    else
      match parseFragment data with
      | .error _ => []
      | .ok (f, rest) => f :: fragmentLoop fuel rest := (rfl)

variable {data : Bytes} {f : HandshakeFragment} {m : HandshakeMessage} {offset length : ℕ}
  {p : PartialHandshake}

/-- The fields of a fragment, read in turn. -/
theorem parseFragment_eq_ok {rest : Bytes} : parseFragment data = .ok (f, rest) ↔ ∃ r₁ r₂ r₃ r₄,
      (WireReader.mk data false).readUint8 = (f.typ, r₁) ∧ r₁.uint24 = (f.total, r₂) ∧
        r₂.readUint16 = (f.sequence, r₃) ∧
      r₃.uint24 = (f.offset, r₄) ∧ r₄.vector24 = (f.body, ⟨rest, false⟩) ∧
      f.offset ≤ f.total ∧ f.body.length ≤ f.total - f.offset := by
  unfold parseFragment
  rcases readTyp : (WireReader.mk data false).readUint8 with ⟨typ, r₁⟩
  rcases readTotal : r₁.uint24 with ⟨total, r₂⟩
  rcases readSequence : r₂.readUint16 with ⟨sequence, r₃⟩
  rcases readOffset : r₃.uint24 with ⟨offset, r₄⟩
  rcases readBody : r₄.vector24 with ⟨body, ⟨remaining, failed⟩⟩
  simp only [readTotal, readSequence, readOffset, readBody]
  rw [Except.ite_error_eq_ok, not_or, not_or, not_lt, not_lt]
  constructor
  · rintro ⟨⟨succeeded, begins, ends⟩, same⟩
    cases same
    rw [Bool.not_eq_true] at succeeded
    subst succeeded
    exact ⟨r₁, r₂, r₃, r₄, rfl, readTotal, readSequence, readOffset, readBody, begins, ends⟩
  · rintro ⟨_, _, _, _, ⟨⟩, second, third, fourth, fifth, begins, ends⟩
    cases readTotal.symm.trans second
    cases readSequence.symm.trans third
    cases readOffset.symm.trans fourth
    cases readBody.symm.trans fifth
    exact ⟨⟨by simp, begins, ends⟩, rfl⟩

/-- A parsed fragment lies inside its message. -/
theorem parseFragment_inside {rest : Bytes} (parsed : parseFragment data = .ok (f, rest)) :
    f.offset + f.body.length ≤ f.total := by
  obtain ⟨_, _, _, _, -, -, -, -, -, begins, ends⟩ := parseFragment_eq_ok.mp parsed
  omega

/-- The fragment that carries a range of a message. -/
def HandshakeMessage.part (m : HandshakeMessage) (offset length : ℕ) : HandshakeFragment :=
  ⟨m.typ, m.sequence, m.body.length, offset, (m.body.drop offset).take length⟩

theorem HandshakeMessage.part_length (inside : offset + length ≤ m.body.length) :
    (m.part offset length).body.length = length := by
  simp only [part, length_take, length_drop]
  omega

theorem HandshakeMessage.part_getD {i : ℕ} (below : i < length) :
    (m.part offset length).body.getD i 0 = m.body.getD (offset + i) 0 := by
  simp only [part, getD_eq_getElem?_getD, getElem?_take_of_lt below, getElem?_drop]

/-- Exactly the ranges of a message can be sent; the record starts with the header of the fragment. -/
theorem HandshakeMessage.fragment_eq_ok {bytes : Bytes} : m.fragment offset length = .ok bytes ↔
      m.body.length ≤ maxHandshakeBody ∧ offset + length ≤ m.body.length ∧
        bytes = m.typ :: (be24 m.body.length ++ (be16 m.sequence ++ (be24 offset ++
          (be24 (m.part offset length).body.length ++ (m.part offset length).body)))) := by
  have limit : maxHandshakeBody < 0xffffff := by decide
  unfold fragment
  split_ifs with large outside
  · simp [large]
  · simp only [false_iff, not_and]
    omega
  have total : m.body.length ≤ 0xffffff := by omega
  have place : offset ≤ 0xffffff := by omega
  have slice : ((m.body.drop offset).take length).length ≤ 0xffffff := by
    rw [length_take, length_drop]
    omega
  have fine : (((((({} : WireWriter).writeUint8 m.typ).uint24 m.body.length).writeUint16 m.sequence).uint24
      offset).vector24 ((m.body.drop offset).take length)).failed = false := by
    simp only [WireWriter.vector24_failed, WireWriter.uint24_failed, WireWriter.writeUint16_failed,
      WireWriter.writeUint8_failed, Bool.or_eq_false_iff, decide_eq_false_iff_not, not_lt]
    exact ⟨⟨⟨trivial, total⟩, place⟩, slice⟩
  rw [WireWriter.result_eq_ok, and_iff_right fine, and_iff_right (by omega), and_iff_right (by omega), eq_comm]
  simp only [WireWriter.vector24_data slice, WireWriter.uint24_data total, WireWriter.uint24_data place,
    WireWriter.writeUint16_data, WireWriter.writeUint8_data, append_assoc]
  rfl

/-- Every range of a message can be sent, and is read back from the front of a record. -/
theorem HandshakeMessage.fragment_parsed (small : m.body.length ≤ maxHandshakeBody)
    (word : m.sequence < 65536) (inside : offset + length ≤ m.body.length) :
    ∃ bytes, m.fragment offset length = .ok bytes ∧ bytes ≠ [] ∧
      ∀ rest, parseFragment (bytes ++ rest) = .ok (m.part offset length, rest) := by
  have limit : maxHandshakeBody < 0xffffff := by decide
  have size := part_length inside
  refine ⟨_, fragment_eq_ok.mpr ⟨small, inside, rfl⟩, by simp, fun rest => ?_⟩
  rw [parseFragment_eq_ok]
  simp only [cons_append, append_assoc]
  refine ⟨_, _, _, _, WireReader.readUint8_cons _ _, WireReader.uint24_append (by omega) _,
    WireReader.readUint16_append word _, WireReader.uint24_append (by omega) _,
    WireReader.vector24_append (by omega) rest, ?_, ?_⟩
  · show offset ≤ m.body.length
    omega
  · show (m.part offset length).body.length ≤ m.body.length - offset
    omega

theorem parseFragment_sequence {rest : Bytes} (parsed : parseFragment data = .ok (f, rest)) : f.sequence < 65536 := by
  obtain ⟨_, r₂, _, _, -, -, readSequence, -, -, -, -⟩ := parseFragment_eq_ok.mp parsed
  have bound := r₂.readUint16_lt
  rwa [readSequence] at bound

private theorem fragmentLoop_parsed {fuel : ℕ} (member : f ∈ fragmentLoop fuel data) :
    ∃ data rest, parseFragment data = .ok (f, rest) := by
  induction fuel generalizing data with
  | zero =>
    rw [fragmentLoop_zero] at member
    cases member
  | succ fuel ih =>
    rw [fragmentLoop_succ] at member
    split at member
    · simp at member
    · split at member
      · simp at member
      · rename_i rest parsed
        rcases mem_cons.mp member with rfl | later
        · exact ⟨data, rest, parsed⟩
        · exact ih later

theorem fragments_parsed (member : f ∈ fragments data) : ∃ data rest, parseFragment data = .ok (f, rest) :=
  fragmentLoop_parsed member

namespace Reassembler

variable {β : Type*} [Budget β]

/-- The fragment lies in the window of sequences that are buffered. -/
structure Expected (r : Reassembler) (f : HandshakeFragment) : Prop where
  from_next : r.next ≤ f.sequence
  below : f.sequence < r.next + maxPendingMessages

/-- The entry describes the message of the fragment. -/
structure Matches (p : PartialHandshake) (f : HandshakeFragment) (epoch : ℕ) : Prop where
  typ : p.message.typ = f.typ
  epoch : p.message.epoch = epoch
  total : p.message.body.length = f.total

/-- The answer to a fragment that was copied into an entry. -/
def copied (p : PartialHandshake) (f : HandshakeFragment) : Except Err Bool :=
  if (p.store f.offset f.body).1 then .ok true else .error .fragmentConflict

/-- Everything that inserting a fragment can do. -/
inductive Inserted (r : Reassembler) (budget : β) (f : HandshakeFragment) (epoch : ℕ) :
    Except Err Bool → Reassembler → β → Prop
  | old : f.sequence < r.next → Inserted r budget f epoch (.ok true) r budget
  | beyond : r.next + maxPendingMessages ≤ f.sequence → Inserted r budget f epoch (.ok false) r budget
  | large : r.Expected f → maxHandshakeBody < f.total → Inserted r budget f epoch (.error .handshakeLimit) r budget
  | conflict {p : PartialHandshake} : r.Expected f → r.pending.lookup f.sequence = some p → ¬Matches p f epoch →
      Inserted r budget f epoch (.error .fragmentConflict) r budget
  | stored {p : PartialHandshake} : r.Expected f → f.total ≤ maxHandshakeBody → r.pending.lookup f.sequence = some p →
      Matches p f epoch → Inserted r budget f epoch (copied p f)
        { r with pending := r.pending.insert f.sequence (p.store f.offset f.body).2 } budget
  | crowded : r.Expected f → f.total ≤ maxHandshakeBody → r.pending.lookup f.sequence = none → f.sequence ≠ r.next →
      maxHandshakeBody < r.futureBytes + f.total → Inserted r budget f epoch (.ok false) r budget
  | exhausted {rest : β} : r.Expected f → f.total ≤ maxHandshakeBody → r.pending.lookup f.sequence = none →
      (f.sequence = r.next ∨ r.futureBytes + f.total ≤ maxHandshakeBody) →
      Budget.reserve budget (fragmentCost f.total) = (false, rest) → Inserted r budget f epoch (.ok false) r rest
  | started {rest : β} : r.Expected f → f.total ≤ maxHandshakeBody → r.pending.lookup f.sequence = none →
      (f.sequence = r.next ∨ r.futureBytes + f.total ≤ maxHandshakeBody) →
      Budget.reserve budget (fragmentCost f.total) = (true, rest) →
      Inserted r budget f epoch (copied (.start f epoch) f)
        { r with
          pending := r.pending.insert f.sequence ((PartialHandshake.start f epoch).store f.offset f.body).2
          buffered := r.buffered + f.total } rest

private theorem storeInto_matches {r : Reassembler} {epoch : ℕ} (agrees : Matches p f epoch) :
    r.storeInto p f epoch =
      (copied p f, { r with pending := r.pending.insert f.sequence (p.store f.offset f.body).2 }) := by
  unfold storeInto
  rw [if_neg (by simp [agrees.typ, agrees.epoch, agrees.total])]
  rfl

private theorem storeInto_conflict {r : Reassembler} {epoch : ℕ} (differs : ¬Matches p f epoch) :
    r.storeInto p f epoch = (.error .fragmentConflict, r) := by
  unfold storeInto
  rw [if_pos]
  by_contra agrees
  simp only [not_or, not_not] at agrees
  exact differs ⟨agrees.1, agrees.2.1, agrees.2.2⟩

private theorem inserted (r : Reassembler) (budget : β) (f : HandshakeFragment) (epoch : ℕ) :
    Inserted r budget f epoch (r.insert budget f epoch).1 (r.insert budget f epoch).2.1
      (r.insert budget f epoch).2.2 := by
  unfold insert
  by_cases past : f.sequence < r.next
  · rw [if_pos past]
    exact .old past
  by_cases far : maxPendingMessages ≤ f.sequence - r.next
  · rw [if_neg past, if_pos far]
    exact .beyond (by omega)
  by_cases large : maxHandshakeBody < f.total
  · rw [if_neg past, if_neg far, if_pos large]
    exact .large ⟨by omega, by omega⟩ large
  rw [if_neg past, if_neg far, if_neg large]
  have expected : r.Expected f := ⟨by omega, by omega⟩
  have small : f.total ≤ maxHandshakeBody := not_lt.mp large
  cases found : r.pending.lookup f.sequence with
  | some p =>
    by_cases agrees : Matches p f epoch
    · simp only [storeInto_matches agrees]
      exact .stored expected small found agrees
    · simp only [storeInto_conflict agrees]
      exact .conflict expected found agrees
  | none =>
    dsimp only
    by_cases crowded : f.sequence ≠ r.next ∧ maxHandshakeBody < r.futureBytes + f.total
    · rw [if_pos crowded]
      exact .crowded expected small found crowded.1 crowded.2
    rw [if_neg crowded]
    have room : f.sequence = r.next ∨ r.futureBytes + f.total ≤ maxHandshakeBody := by
      by_contra none
      exact crowded ⟨fun same => none (.inl same), by omega⟩
    split_ifs with refused
    · exact .exhausted expected small found room (Prod.ext refused rfl)
    · have agrees : Matches (.start f epoch) f epoch := ⟨rfl, rfl, by simp [PartialHandshake.start]⟩
      simp only [storeInto_matches agrees, AList.insert_insert]
      exact .started expected small found room (Prod.ext (by simpa using refused) rfl)

theorem insert_cases {P : Except Err Bool → Reassembler → β → Prop} {r : Reassembler} {budget : β}
    {f : HandshakeFragment}
    {epoch : ℕ} (each : ∀ {answer r' rest}, Inserted r budget f epoch answer r' rest → P answer r' rest) :
    P (r.insert budget f epoch).1 (r.insert budget f epoch).2.1 (r.insert budget f epoch).2.2 :=
  each (r.inserted budget f epoch)

/-- Every pending entry satisfies `E`. -/
def Entries (E : ℕ → PartialHandshake → Prop) (r : Reassembler) : Prop :=
  ∀ sequence p, r.pending.lookup sequence = some p → E sequence p

/-- `E` holds of new entries for the fragment and survives storing it. -/
structure Admits (E : ℕ → PartialHandshake → Prop) (epoch : ℕ) (f : HandshakeFragment) : Prop where
  start : E f.sequence (.start f epoch)
  store : ∀ p, E f.sequence p → p.message.typ = f.typ → p.message.epoch = epoch →
    p.message.body.length = f.total → E f.sequence (p.store f.offset f.body).2

section

variable {E : ℕ → PartialHandshake → Prop} {r : Reassembler} {f : HandshakeFragment} {epoch : ℕ}

theorem entries_insert {sequence : ℕ} {buffered : ℕ} (entries : r.Entries E) (holds : E sequence p) :
    ({ r with pending := r.pending.insert sequence p, buffered } : Reassembler).Entries E := by
  intro other q found
  rw [AList.lookup_insert_eq] at found
  split at found
  · rename_i same
    cases found
    exact same ▸ holds
  · exact entries other q found

private theorem insert_entries (budget : β) (entries : r.Entries E) (admits : Admits E epoch f) :
    (r.insert budget f epoch).2.1.Entries E := by
  refine insert_cases (P := fun _ r' _ => r'.Entries E) fun inserted => ?_
  cases inserted with
  | old _ | beyond _ | large _ _ | conflict _ _ _ | crowded _ _ _ _ _ | exhausted _ _ _ _ _ => exact entries
  | stored _ _ found agrees =>
    exact entries_insert entries (admits.store _ (entries _ _ found) agrees.typ agrees.epoch agrees.total)
  | started _ _ _ _ _ =>
    exact entries_insert entries (admits.store _ admits.start rfl rfl (by simp [PartialHandshake.start]))

theorem addLoop_succ (fuel : ℕ) (r : Reassembler) (budget : β) (data : Bytes) (epoch : ℕ) (accepted : Bool) :
    addLoop (fuel + 1) r budget data epoch accepted =
      if data = [] then (.ok accepted, r, budget)
      else
        match parseFragment data with
        | .error e => (.error e, r, budget)
        | .ok (f, rest) =>
          match r.insert budget f epoch with
          | (.error e, r, budget) => (.error e, r, budget)
          | (.ok stored, r, budget) => addLoop fuel r budget rest epoch (accepted && stored) := (rfl)

/-- What survives the insertion of each fragment of a record survives the record. -/
private theorem addLoop_invariant {P : Reassembler → β → Prop} {fuel : ℕ} {budget : β} {accepted : Bool}
    (keeps : ∀ f ∈ fragmentLoop fuel data, ∀ r budget, P r budget →
      P (r.insert budget f epoch).2.1 (r.insert budget f epoch).2.2) (holds : P r budget) :
    P (addLoop fuel r budget data epoch accepted).2.1 (addLoop fuel r budget data epoch accepted).2.2 := by
  induction fuel generalizing r data budget accepted with
  | zero => exact holds
  | succ fuel ih =>
    rw [addLoop_succ]
    split
    · exact holds
    rename_i nonempty
    rw [fragmentLoop_succ, if_neg nonempty] at keeps
    split
    · exact holds
    rename_i f rest parsed
    simp only [parsed, forall_mem_cons] at keeps
    have inserted := keeps.1 r budget holds
    split
    · rename_i outcome
      rwa [outcome] at inserted
    · rename_i outcome
      rw [outcome] at inserted
      exact ih keeps.2 inserted

theorem add_invariant {P : Reassembler → β → Prop} {budget : β}
    (keeps : ∀ f ∈ fragments data, ∀ r budget, P r budget →
      P (r.insert budget f epoch).2.1 (r.insert budget f epoch).2.2) (holds : P r budget) :
    P (r.add budget data epoch).2.1 (r.add budget data epoch).2.2 := by
  unfold add
  split
  · exact holds
  · exact addLoop_invariant keeps holds

/-- The invariant rule of entries. -/
theorem add_entries {budget : β} (entries : r.Entries E) (admits : ∀ f ∈ fragments data, Admits E epoch f) :
    (r.add budget data epoch).2.1.Entries E := by
  apply add_invariant (P := fun r _ => r.Entries E) _ entries
  intro f member r budget entries
  exact insert_entries budget entries (admits f member)

/-- The message that comes out was a complete entry; the others stay. -/
theorem pop_entries {budget rest : β} {r' : Reassembler} (popped : r.pop budget = (some m, r', rest)) :
    (∃ p, r.pending.lookup r.next = some p ∧ p.message = m ∧ p.remaining = 0) ∧ r'.next = r.next + 1 ∧
      ∀ sequence p, r'.pending.lookup sequence = some p → r.pending.lookup sequence = some p := by
  unfold pop at popped
  split at popped
  · cases popped
  split at popped
  · cases popped
  rename_i p found
  split at popped
  · cases popped
  rename_i full
  cases popped
  refine ⟨⟨p, found, rfl, not_not.mp full⟩, rfl, fun sequence q kept => ?_⟩
  rw [AList.lookup_erase_eq] at kept
  split at kept
  · cases kept
  · exact kept

end

end Reassembler

end Socat.Dtls13
