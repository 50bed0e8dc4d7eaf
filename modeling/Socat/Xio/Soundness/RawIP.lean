import Socat.Xio.Model.RawIP

/-! # What a raw IP read delivers

A packet that fits into the buffer is delivered without its header. A longer one is cut off by the kernel; then its
total length is not the number of bytes received, and the header stays.
-/

namespace Socat.Xio.RawIP

open List

/-- A packet that is as its header says. -/
structure IPv4Packet where
  bytes : Bytes
  version : bytes.getD 0 0 >>> 4 = 4
  header : 20 ≤ headerLength bytes
  whole : headerLength bytes ≤ bytes.length
  total : totalLength bytes = bytes.length

def IPv4Packet.payload (k : IPv4Packet) : Bytes := k.bytes.drop (headerLength k.bytes)

/-- A read returns these bytes, or the end of the stream in their place if there are none. -/
structure Received.Delivers (r : Received) (data : Bytes) : Prop where
  buffer : r.buffer.take r.result.1 = data
  n : r.result.1 = data.length
  err : r.result.2 = if data = [] then some .eof else none

variable {p packet : Bytes}

theorem length_store : (store p packet).length = p.length := by
  simp only [store, length_append, length_take, length_drop]
  omega

private theorem getD_store {i : ℕ} (inside : i < p.length) (present : i < packet.length) :
    (store p packet).getD i 0 = packet.getD i 0 := by
  have stored : i < (packet.take p.length).length := by
    rw [length_take]
    omega
  simp only [getD_eq_getElem?_getD, store, getElem?_append_left stored, getElem?_take_of_lt inside]

/-- The bytes at the front of the buffer are counted. -/
theorem delivers_counted {data : Bytes} (front : p.take data.length = data) {bufLen : ℕ} (room : 0 < bufLen) :
    Received.Delivers ⟨p, zeroLengthMessageEOF data.length none bufLen⟩ data := by
  by_cases empty : data = []
  · subst empty
    rw [zeroLengthMessageEOF, if_pos ⟨rfl, rfl, room⟩]
    exact ⟨rfl, rfl, rfl⟩
  · rw [zeroLengthMessageEOF, if_neg fun none => empty (length_eq_zero_iff.mp none.1)]
    exact ⟨front, rfl, (if_neg empty).symm⟩

section

variable (k : IPv4Packet) (room : 60 ≤ p.length)
include room

private theorem deliver_store : (deliver true (store p k.bytes) (min p.length k.bytes.length)).Delivers
    (if k.bytes.length ≤ p.length then k.payload else k.bytes.take p.length) := by
  have header := k.header
  have whole := k.whole
  have same : ∀ i < 20, (store p k.bytes).getD i 0 = k.bytes.getD i 0 := fun i small =>
    getD_store (by omega) (by omega)
  have total : totalLength (store p k.bytes) = k.bytes.length := by
    rw [totalLength, same 2 (by decide), same 3 (by decide)]
    exact k.total
  have filled : 0 < (store p k.bytes).length := by
    rw [length_store]
    omega
  have received : min p.length k.bytes.length ≠ 0 := by omega
  simp only [deliver, skipIPv4HeaderIfPresent, headerLength, same 0 (by decide), total, afterRawIPRecv, if_neg received,
    if_true]
  rw [← headerLength]
  by_cases fits : k.bytes.length ≤ p.length
  · have kept : min p.length k.bytes.length = k.bytes.length := Nat.min_eq_right fits
    have start : (store p k.bytes).take k.bytes.length = k.bytes := by
      rw [store, take_of_length_le fits, take_left]
    have size : k.bytes.length - headerLength k.bytes = k.payload.length := (length_drop ..).symm
    rw [kept, start, if_neg (by omega), if_neg (not_not_intro k.version), if_neg (by omega), if_neg (not_not_intro rfl),
      size, if_pos fits]
    exact delivers_counted take_left filled
  · have cut : min p.length k.bytes.length = p.length := by omega
    have unlike : k.bytes.length ≠ p.length := by omega
    have size : (k.bytes.take p.length).length = p.length := length_take.trans cut
    simp only [cut, if_pos unlike, ite_self, if_neg fits]
    have counted : Received.Delivers ⟨store p k.bytes, _⟩ _ := delivers_counted take_left filled
    rwa [size] at counted

/-- A packet that fits is delivered as its payload; of a longer one the bytes that fit are, header included. -/
theorem rawIP_delivers :
    let data := if k.bytes.length ≤ p.length then k.payload else k.bytes.take p.length
    (rawIPConnRead true p (.packet k.bytes)).Delivers data ∧
      ∀ refused : List Bytes, ∀ rest, ∃ r, readRawIPFiltered true p
        (refused.map (.packet ·, .refuse) ++ (.packet k.bytes, .keep) :: rest) = some r ∧
          r.Delivers data := by
  refine ⟨deliver_store k room, fun refused rest => ?_⟩
  -- A refused packet only changes what the buffer holds.
  induction refused generalizing p with
  | nil => exact ⟨_, rfl, deliver_store k room⟩
  | cons bytes refused ih =>
    obtain ⟨r, read, delivers⟩ := ih (p := store p bytes) (by rwa [length_store])
    rw [length_store] at delivers
    exact ⟨r, read, delivers⟩

end

/-- A header of 20 bytes and 41 bytes of payload. -/
def packetOf61 : IPv4Packet where
  bytes := [0x45, 0, 0, 61] ++ List.replicate 57 7
  version := by decide
  header := by decide
  whole := by decide
  total := by decide

theorem rawIP_delivers_payload : (rawIPConnRead true (List.replicate 61 0) (.packet packetOf61.bytes)).Delivers
    (List.replicate 41 7) := (rawIP_delivers packetOf61 (by decide)).1

/-- A buffer of 60 bytes gets the header. -/
theorem rawIP_keeps_header :
    let r := rawIPConnRead true (List.replicate 60 0) (.packet packetOf61.bytes)
    ¬r.buffer.take r.result.1 <+: packetOf61.payload := by
  decide

end Socat.Xio.RawIP
