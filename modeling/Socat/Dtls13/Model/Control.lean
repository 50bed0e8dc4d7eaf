import Socat.Dtls13.Model.Record

/-! # Bodies of control messages

ACK records list record numbers, sorted and without duplicates. NewConnectionId carries a list of
connection IDs and one usage byte: 0 asks the peer to switch at once, 1 offers spares. Session
tickets are validated and then dropped.
-/

namespace Socat.Dtls13

open List

def msgNewSessionTicket : UInt8 := 4
def msgRequestConnectionID : UInt8 := 9
def msgNewConnectionID : UInt8 := 10
def msgKeyUpdate : UInt8 := 24

/-! ## Acknowledgements -/

def maxQueuedAcknowledgements : ℕ := 32

/-- `compareRecordNumber` gives at most zero: the order ACK lists are sorted by. -/
def RecordNumber.notAfter (a b : RecordNumber) : Prop := a.after b = false

instance : DecidableRel RecordNumber.notAfter := fun a b => inferInstanceAs (Decidable (a.after b = false))

/-- `slices.Compact`: drop the repetitions of a run of equal numbers. -/
def compactNumbers : List RecordNumber → List RecordNumber
  | a :: b :: rest => if a = b then compactNumbers (b :: rest) else a :: compactNumbers (b :: rest)
  | short => short

def encodeNumber (n : RecordNumber) : Bytes := bigEndian n.epoch 8 ++ bigEndian n.sequence 8

def encodeACK (records : List RecordNumber) : Except Err Bytes :=
  if (maxContent - 2) / 16 < records.length then .error .malformedACK
  else
    let records := compactNumbers (records.insertionSort RecordNumber.notAfter)
    .ok (be16 (16 * records.length) ++ records.flatMap encodeNumber)

/-- Read numbers of sixteen bytes each. -/
def parseNumbers : ℕ → Bytes → List RecordNumber
  | 0, _ => []
  | count + 1, data =>
    ⟨readNat (data.take 8), readNat ((data.drop 8).take 8)⟩ :: parseNumbers count (data.drop 16)

def parseACK (data : Bytes) : Except Err (List RecordNumber) :=
  if data.length < 2 ∨ maxContent < data.length ∨ readNat (data.take 2) ≠ data.length - 2 ∨
      (data.length - 2) % 16 ≠ 0 then .error .malformedACK
  else .ok (parseNumbers ((data.length - 2) / 16) (data.drop 2))

variable {records : List RecordNumber} {body : Bytes} {ids : List Bytes} {immediate : Bool}

theorem mem_compactNumbers {n : RecordNumber} : n ∈ compactNumbers records ↔ n ∈ records := by
  induction records using compactNumbers.induct with
  | case1 a rest ih => simp [compactNumbers, ih]
  | case2 a b rest different ih => simp [compactNumbers, different, ih]
  | case3 short => cases short <;> simp_all [compactNumbers]

theorem compactNumbers_length_le (records : List RecordNumber) :
    (compactNumbers records).length ≤ records.length := by
  induction records using compactNumbers.induct with
  | case1 a rest ih =>
    simp only [compactNumbers, if_true, length_cons] at *
    omega
  | case2 a b rest different ih =>
    simp only [compactNumbers, different, if_false, length_cons] at *
    omega
  | case3 short => cases short <;> simp_all [compactNumbers]

@[simp] theorem encodeNumber_length (n : RecordNumber) : (encodeNumber n).length = 16 := by
  simp [encodeNumber]

theorem flatMap_encodeNumber_length (records : List RecordNumber) :
    (records.flatMap encodeNumber).length = 16 * records.length := by
  induction records with
  | nil => rfl
  | cons n rest ih => simp [ih]; omega

/-- A number that fits the two 64-bit fields of an ACK entry. -/
def RecordNumber.Fits (n : RecordNumber) : Prop := n.epoch < 2 ^ 64 ∧ n.sequence < 2 ^ 64

private theorem parseNumbers_flatMap (records : List RecordNumber) (fits : ∀ n ∈ records, n.Fits) :
    parseNumbers records.length (records.flatMap encodeNumber) = records := by
  induction records with
  | nil => rfl
  | cons n rest ih =>
    obtain ⟨⟨epochFits, sequenceFits⟩, others⟩ := forall_mem_cons.mp fits
    have epochRead : readNat (bigEndian n.epoch 8) = n.epoch := by
      rw [readNat_bigEndian]
      exact Nat.mod_eq_of_lt epochFits
    have sequenceRead : readNat (bigEndian n.sequence 8) = n.sequence := by
      rw [readNat_bigEndian]
      exact Nat.mod_eq_of_lt sequenceFits
    simp only [length_cons, flatMap_cons, parseNumbers]
    rw [drop_left' (encodeNumber_length n), ih others]
    simp [encodeNumber, epochRead, sequenceRead]

/-- The list an ACK carries. -/
def ackList (records : List RecordNumber) : List RecordNumber :=
  compactNumbers (records.insertionSort RecordNumber.notAfter)

theorem mem_ackList {n : RecordNumber} : n ∈ ackList records ↔ n ∈ records := by
  rw [ackList, mem_compactNumbers, mem_insertionSort]

private theorem ackList_length_le (records : List RecordNumber) : (ackList records).length ≤ records.length :=
  (compactNumbers_length_le _).trans_eq (length_insertionSort _ _)

theorem parseACK_ackList (fits : ∀ n ∈ records, n.Fits) (encoded : encodeACK records = .ok body) :
    parseACK body = .ok (ackList records) := by
  unfold encodeACK at encoded
  split at encoded
  · contradiction
  · rename_i bound
    have shorter := ackList_length_le records
    cases encoded
    simp only [maxContent] at bound
    show parseACK (be16 (16 * (ackList records).length) ++ (ackList records).flatMap encodeNumber) = _
    have size : (be16 (16 * (ackList records).length) ++ (ackList records).flatMap encodeNumber).length
        = 16 * (ackList records).length + 2 := by
      rw [length_append, flatMap_encodeNumber_length, be16_length]
      omega
    unfold parseACK
    rw [size, take_left' (be16_length _), drop_left' (be16_length _),
      readNat_be16 (by omega), if_neg (by simp only [maxContent]; omega)]
    have count : (16 * (ackList records).length + 2 - 2) / 16 = (ackList records).length := by omega
    rw [count, parseNumbers_flatMap _ fun n member => fits n (mem_ackList.mp member)]

/-! ## Connection IDs -/

def maxConnectionIDs : ℕ := 8

def encodeCIDs (ids : List Bytes) (immediate : Bool) : Except Err Bytes :=
  let list := ids.foldl WireWriter.vector8 {}
  if list.failed then .error .decode
  else
    let w := ({} : WireWriter).vector16 list.data
    if immediate ∧ ids = [] then .error .illegalParameter
    else (w.writeUint8 (if immediate then 0 else 1)).result

/-- The loop of `parseCIDs`: later duplicates and everything beyond the eighth are dropped. -/
def parseIDs : ℕ → WireReader → List Bytes → Except Err (List Bytes)
  | 0, _, ids => .ok ids
  | fuel + 1, list, ids =>
    if list.data = [] then .ok ids
    else
      let (id, list) := list.vector8
      if list.failed then .error .decode
      else parseIDs fuel list (if ids.length < maxConnectionIDs ∧ id ∉ ids then ids ++ [id] else ids)

def parseCIDs (body : Bytes) : Except Err (List Bytes × Bool) :=
  let (data, r) := (WireReader.mk body false).vector16
  let (usage, r) := r.readUint8
  if r.done = false then .error .decode
  else if 1 < usage ∨ (usage = 0 ∧ data = []) then .error .illegalParameter
  else do
    let ids ← parseIDs data.length ⟨data, false⟩ []
    return (ids, usage == 0)

/-- A connection ID behind its length byte. -/
def encodeID (id : Bytes) : Bytes := UInt8.ofNat id.length :: id

theorem foldl_vector8 (ids : List Bytes) (w : WireWriter) (fits : (ids.foldl WireWriter.vector8 w).failed = false) :
    w.failed = false ∧ (∀ id ∈ ids, id.length ≤ 255) ∧
      (ids.foldl WireWriter.vector8 w).data = w.data ++ ids.flatMap encodeID := by
  induction ids generalizing w with
  | nil => simpa using fits
  | cons id rest ih =>
    obtain ⟨written, short, data⟩ := ih (w.vector8 id) fits
    unfold WireWriter.vector8 at written
    split at written
    · contradiction
    · rename_i bound
      refine ⟨written, forall_mem_cons.mpr ⟨Nat.le_of_not_lt bound, short⟩, ?_⟩
      rw [foldl_cons, data]
      simp [WireWriter.vector8, bound, encodeID]

theorem encodeCIDs_body (encoded : encodeCIDs ids immediate = .ok body) :
    (∀ id ∈ ids, id.length ≤ 255) ∧ (immediate = true → ids ≠ []) ∧
      (ids.flatMap encodeID).length ≤ 65535 ∧
      body = be16 (ids.flatMap encodeID).length ++ ids.flatMap encodeID ++
        [if immediate then 0 else 1] := by
  unfold encodeCIDs at encoded
  dsimp only at encoded
  split at encoded
  · contradiction
  · rename_i fits
    obtain ⟨-, short, data⟩ := foldl_vector8 ids {} (Bool.eq_false_iff.mpr fits)
    rw [nil_append] at data
    rw [data] at encoded
    split at encoded
    · contradiction
    · rename_i nonempty
      unfold WireWriter.vector16 at encoded
      split at encoded
      · contradiction
      · rename_i bound
        simp only [WireWriter.writeUint8, WireWriter.result, Bool.false_eq_true, if_false,
          Except.ok.injEq, nil_append] at encoded
        refine ⟨short, fun now empty => nonempty ⟨now, empty⟩, Nat.le_of_not_lt bound, encoded.symm⟩

theorem encodeCIDs_length_le (encoded : encodeCIDs ids immediate = .ok body) : body.length ≤ 65538 := by
  obtain ⟨-, -, bound, rfl⟩ := encodeCIDs_body encoded
  simp only [length_append, be16_length, length_singleton]
  omega

private theorem vector8_encodeID (id rest : Bytes) (short : id.length ≤ 255) :
    (WireReader.mk (encodeID id ++ rest) false).vector8 = (id, ⟨rest, false⟩) := by
  have size : (UInt8.ofNat id.length).toNat = id.length := by
    rw [UInt8.toNat_ofNat']
    exact Nat.mod_eq_of_lt (by omega)
  simp only [WireReader.vector8, WireReader.readUint8, encodeID, WireReader.take]
  simp [size]

private theorem parseIDs_flatMap (ids known : List Bytes) (fuel : ℕ) (short : ∀ id ∈ ids, id.length ≤ 255)
    (enough : (ids.flatMap encodeID).length ≤ fuel) (distinct : (known ++ ids).Nodup)
    (few : (known ++ ids).length ≤ maxConnectionIDs) :
    parseIDs fuel ⟨ids.flatMap encodeID, false⟩ known = .ok (known ++ ids) := by
  induction ids generalizing known fuel with
  | nil => cases fuel <;> simp [parseIDs]
  | cons id rest ih =>
    obtain ⟨shortHead, shortRest⟩ := forall_mem_cons.mp short
    cases fuel with
    | zero => simp [encodeID] at enough
    | succ fuel =>
      have fresh : id ∉ known := fun member =>
        (nodup_append.mp distinct).2.2 id member id mem_cons_self rfl
      have room : known.length < maxConnectionIDs := by
        simp only [length_append, length_cons] at few
        omega
      have nonempty : encodeID id ++ rest.flatMap encodeID ≠ [] := by simp [encodeID]
      rw [flatMap_cons, parseIDs, if_neg nonempty, vector8_encodeID id _ shortHead]
      simp only [Bool.false_eq_true, if_false, room, fresh, not_false_eq_true, and_self, if_true]
      rw [ih (known ++ [id]) fuel shortRest ?_ (by simpa using distinct) (by simpa using few)]
      · simp
      · simp only [flatMap_cons, length_append, encodeID, length_cons] at enough
        omega

/-- Connection IDs that were encoded are parsed back. -/
theorem parseCIDs_encodeCIDs (encoded : encodeCIDs ids immediate = .ok body) (distinct : ids.Nodup)
    (few : ids.length ≤ maxConnectionIDs) : parseCIDs body = .ok (ids, immediate) := by
  obtain ⟨short, nonempty, bound, rfl⟩ := encodeCIDs_body encoded
  set data := ids.flatMap encodeID with data_def
  have filled : immediate = true → data ≠ [] := fun now empty => by
    obtain ⟨id, rest, rfl⟩ := exists_cons_of_ne_nil (nonempty now)
    simp [data_def, encodeID] at empty
  have parsed := parseIDs_flatMap ids [] data.length short le_rfl (by simpa using distinct)
    (by simpa using few)
  rw [← data_def, nil_append] at parsed
  unfold parseCIDs
  rw [WireReader.vector16_append data _ bound]
  cases immediate with
  | true =>
    simp only [WireReader.readUint8, WireReader.take, WireReader.done]
    simp [filled rfl, parsed]
  | false =>
    simp only [WireReader.readUint8, WireReader.take, WireReader.done]
    simp [parsed]

/-! ## Session tickets -/

/-- `parseExtensions` for a ticket: only duplicates and truncation are errors. -/
def parseExtensions : ℕ → WireReader → List ℕ → Except Err Unit
  | 0, r, _ => if r.done then .ok () else .error .decode
  | fuel + 1, r, seen =>
    if r.data = [] ∨ r.failed then (if r.done then .ok () else .error .decode)
    else
      let (id, r) := r.readUint16
      let (_, r) := r.vector16
      if id ∈ seen then .error .decode else parseExtensions fuel r (id :: seen)

def validateSessionTicket (body : Bytes) : Except Err Unit :=
  let (_, r) := (WireReader.mk body false).take 8
  let (_, r) := r.vector8
  let (ticket, r) := r.vector16
  let (ext, r) := r.vector16
  if r.done = false ∨ ticket = [] then .error .decode
  else parseExtensions ext.length ⟨ext, false⟩ []

end Socat.Dtls13
