import Socat.Dtls13.Model.Wire

/-! # Readers and writers

A reader takes off the front of its input exactly what a writer appended, and at most so many bytes. A
writer fails only on a value that is too long for its length field.
-/

namespace Socat.Dtls13

/-! ## Readers -/

variable {n : ℕ} {r : WireReader}

namespace WireReader

theorem take_of_length {front : Bytes} (size : front.length = n) (rest : Bytes) :
    (WireReader.mk (front ++ rest) false).take n = (front, ⟨rest, false⟩) := size ▸ take_append front rest

@[simp] theorem readUint8_cons (byte : UInt8) (rest : Bytes) :
    (WireReader.mk (byte :: rest) false).readUint8 = (byte, ⟨rest, false⟩) := by
  simp [readUint8, take]

@[simp] theorem readUint16_append (bound : n < 65536) (rest : Bytes) :
    (WireReader.mk (be16 n ++ rest) false).readUint16 = (n, ⟨rest, false⟩) := by
  simp only [readUint16, take_of_length (be16_length n), readNat_be16 bound]

theorem vector8_append {data : Bytes} (bound : data.length ≤ 255) (rest : Bytes) :
    (WireReader.mk (UInt8.ofNat data.length :: (data ++ rest)) false).vector8 = (data, ⟨rest, false⟩) := by
  have size : (UInt8.ofNat data.length).toNat = data.length := UInt8.toNat_ofNat_of_lt (show data.length < 256 by omega)
  simp only [vector8, readUint8_cons, size, take_append]

@[simp] theorem vector8_zero (rest : Bytes) : (WireReader.mk (0 :: rest) false).vector8 = ([], ⟨rest, false⟩) := by
  simp [vector8, take]

@[simp] theorem vector8_one (byte : UInt8) (rest : Bytes) :
    (WireReader.mk (1 :: byte :: rest) false).vector8 = ([byte], ⟨rest, false⟩) := by
  simp [vector8, take]

theorem uint24_append (bound : n < 16777216) (rest : Bytes) :
    (WireReader.mk (be24 n ++ rest) false).uint24 = (n, ⟨rest, false⟩) := by
  simp only [uint24, take_of_length (be24_length n), readNat_be24 bound]

theorem vector24_append {data : Bytes} (bound : data.length ≤ 0xffffff) (rest : Bytes) :
    (WireReader.mk (be24 data.length ++ (data ++ rest)) false).vector24 = (data, ⟨rest, false⟩) := by
  simp only [vector24, uint24, take_of_length (be24_length _), readNat_be24 (by omega : data.length < 16777216),
    take_append]

@[simp] theorem done_mk (rest : Bytes) : (WireReader.mk rest false).done = rest.isEmpty := rfl

/-- At most `n` bytes were taken from the input, if nothing failed. -/
def Consumes (r r' : WireReader) (n : ℕ) : Prop :=
  r'.failed = false → r.failed = false ∧ r.data.length ≤ n + r'.data.length

theorem Consumes.trans {r' r'' : WireReader} {n' : ℕ} (first : r.Consumes r' n)
    (second : r'.Consumes r'' n') : r.Consumes r'' (n + n') := by
  intro ended
  obtain ⟨between, later⟩ := second ended
  obtain ⟨begun, earlier⟩ := first between
  exact ⟨begun, by omega⟩

theorem consumes_take (r : WireReader) (n : ℕ) : r.Consumes (r.take n).2 n := by
  unfold take
  split
  · rintro ⟨⟩
  · rename_i fits
    intro _
    simp only [Bool.or_eq_true, decide_eq_true_eq, not_or, Bool.not_eq_true] at fits
    exact ⟨fits.1, by simp only [List.length_drop]; omega⟩

theorem consumes_readUint8 (r : WireReader) : r.Consumes r.readUint8.2 1 := r.consumes_take 1

theorem consumes_vector8 (r : WireReader) : r.Consumes r.vector8.2 256 := by
  intro ended
  have size : r.readUint8.1.toNat < 256 := UInt8.toNat_lt _
  obtain ⟨begun, taken⟩ := (r.consumes_readUint8.trans (r.readUint8.2.consumes_take r.readUint8.1.toNat)) ended
  exact ⟨begun, taken.trans (Nat.add_le_add_right (by omega) _)⟩

private theorem readNat_lt (bytes : Bytes) : readNat bytes < 256 ^ bytes.length := by
  induction bytes using List.reverseRecOn with
  | nil => simp [readNat]
  | append_singleton front last ih =>
    have bound := UInt8.toNat_lt last
    rw [readNat_concat, List.length_append, List.length_singleton, pow_succ]
    omega

private theorem bigEndian_readNat (bytes : Bytes) : bigEndian (readNat bytes) bytes.length = bytes := by
  induction bytes using List.reverseRecOn with
  | nil => rfl
  | append_singleton front last ih =>
    have bound := UInt8.toNat_lt last
    have high : (readNat front * 256 + last.toNat) / 256 = readNat front := by omega
    have low : UInt8.ofNat (readNat front * 256 + last.toNat) = last := by
      rw [UInt8.ofNat_eq_iff_mod_eq_toNat]
      omega
    rw [readNat_concat, List.length_append, List.length_singleton, bigEndian, high, ih, low]

private theorem be16_readNat {bytes : Bytes} (two : bytes.length = 2) : be16 (readNat bytes) = bytes := by
  rw [be16_eq_bigEndian, ← two]
  exact bigEndian_readNat bytes

theorem take_fst_length (r : WireReader) (n : ℕ) : (r.take n).1.length ≤ n := by
  unfold take
  split
  · exact Nat.zero_le n
  · exact (List.length_take_le n r.data)

theorem readUint16_lt (r : WireReader) : r.readUint16.1 < 65536 := by
  refine (readNat_lt _).trans_le ?_
  exact (Nat.pow_le_pow_right (by decide) (r.take_fst_length 2) : 256 ^ _ ≤ 256 ^ 2)

theorem vector16_length_le (r : WireReader) : r.vector16.1.length ≤ 65535 :=
  (r.readUint16.2.take_fst_length _).trans (Nat.le_of_lt_succ r.readUint16_lt)

theorem consumes_vector16 (r : WireReader) : r.Consumes r.vector16.2 65537 := by
  intro ended
  have size := r.readUint16_lt
  obtain ⟨begun, taken⟩ := ((r.consumes_take 2).trans (r.readUint16.2.consumes_take r.readUint16.1)) ended
  exact ⟨begun, taken.trans (Nat.add_le_add_right (by omega) _)⟩

/-- What was taken stood at the front of the input, if nothing failed. -/
theorem take_of_not_failed (ended : (r.take n).2.failed = false) :
    r.failed = false ∧ (r.take n).1.length = n ∧ r.data = (r.take n).1 ++ (r.take n).2.data := by
  unfold take at ended ⊢
  split at ended
  · cases ended
  · rename_i fits
    simp only [Bool.or_eq_true, decide_eq_true_eq, not_or, Bool.not_eq_true, not_lt] at fits
    rw [if_neg (by simp [fits])]
    exact ⟨fits.1, List.length_take_of_le fits.2, (List.take_append_drop n r.data).symm⟩

theorem readUint16_of_not_failed (ended : r.readUint16.2.failed = false) :
    r.failed = false ∧ r.data = be16 r.readUint16.1 ++ r.readUint16.2.data := by
  obtain ⟨begun, size, front⟩ := take_of_not_failed (n := 2) ended
  have code : be16 r.readUint16.1 = (r.take 2).1 := be16_readNat size
  exact ⟨begun, code ▸ front⟩

theorem vector16_of_not_failed (ended : r.vector16.2.failed = false) :
    r.failed = false ∧ r.data = be16 r.vector16.1.length ++ (r.vector16.1 ++ r.vector16.2.data) := by
  obtain ⟨between, size, front⟩ := take_of_not_failed (n := r.readUint16.1) ended
  obtain ⟨begun, whole⟩ := readUint16_of_not_failed between
  have length : r.vector16.1.length = r.readUint16.1 := size
  refine ⟨begun, ?_⟩
  rw [length, whole]
  exact congrArg (be16 r.readUint16.1 ++ ·) front

end WireReader

/-! ## Writers -/

namespace WireWriter

theorem result_eq_ok {w : WireWriter} {bytes : Bytes} : w.result = .ok bytes ↔ w.failed = false ∧ w.data = bytes := by
  unfold result
  cases w.failed <;> simp

theorem result_of_not_failed {w : WireWriter} (written : w.failed = false) : w.result = .ok w.data :=
  result_eq_ok.mpr ⟨written, rfl⟩

@[simp] theorem writeUint8_failed (w : WireWriter) (v : UInt8) : (w.writeUint8 v).failed = w.failed := rfl

@[simp] theorem writeUint16_failed (w : WireWriter) (v : ℕ) : (w.writeUint16 v).failed = w.failed := rfl

@[simp] theorem vector8_failed (w : WireWriter) (v : Bytes) :
    (w.vector8 v).failed = (w.failed || decide (255 < v.length)) := by
  unfold vector8
  split <;> simp [*]

@[simp] theorem vector16_failed (w : WireWriter) (v : Bytes) :
    (w.vector16 v).failed = (w.failed || decide (65535 < v.length)) := by
  unfold vector16
  split <;> simp [*]

@[simp] theorem vector24_failed (w : WireWriter) (v : Bytes) :
    (w.vector24 v).failed = (w.failed || decide (0xffffff < v.length)) := by
  unfold vector24
  split <;> simp [*]

@[simp] theorem uint24_failed (w : WireWriter) (v : ℕ) :
    (w.uint24 v).failed = (w.failed || decide (0xffffff < v)) := by
  unfold uint24
  split <;> simp [*]

@[simp] theorem writeUint8_data (w : WireWriter) (v : UInt8) : (w.writeUint8 v).data = w.data ++ [v] := rfl

@[simp] theorem writeUint16_data (w : WireWriter) (v : ℕ) : (w.writeUint16 v).data = w.data ++ be16 v := rfl

theorem uint24_data {v : ℕ} (bound : v ≤ 0xffffff) (w : WireWriter) : (w.uint24 v).data = w.data ++ be24 v := by
  simp [uint24, Nat.not_lt.mpr bound]

theorem vector8_data {v : Bytes} (bound : v.length ≤ 255) (w : WireWriter) :
    (w.vector8 v).data = w.data ++ UInt8.ofNat v.length :: v := by
  simp [vector8, Nat.not_lt.mpr bound]

theorem vector16_data {v : Bytes} (bound : v.length ≤ 65535) (w : WireWriter) :
    (w.vector16 v).data = w.data ++ (be16 v.length ++ v) := by
  simp [vector16, Nat.not_lt.mpr bound]

theorem vector24_data {v : Bytes} (bound : v.length ≤ 0xffffff) (w : WireWriter) :
    (w.vector24 v).data = w.data ++ (be24 v.length ++ v) := by
  simp [vector24, Nat.not_lt.mpr bound]

end WireWriter

end Socat.Dtls13
