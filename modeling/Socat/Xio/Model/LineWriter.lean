import Socat.Xio.Model.Filters

/-! # Writing lines that end with CR LF

`crnlWriter` writes LF as CR LF. The writer below accepts as much of each write as it likes, with an error or
without one, so a CR may be accepted and its LF not; the writer remembers that. It reports how many bytes of its own
input are done with, and its caller comes back with the others.
-/

namespace Socat.Xio.Filter

inductive WriteError
  | retryable
  | other
  | shortWrite
deriving DecidableEq, Repr

/-- What one write accepts at most, and its error. -/
structure Acceptance where
  count : ℕ
  error : Option WriteError
deriving DecidableEq, Repr

/-- The writer below. -/
structure Sink where
  answers : ℕ → Acceptance
  writes : ℕ := 0
  accepted : List UInt8 := []

/-- The count and the error of a write. -/
abbrev Written := ℕ × Option WriteError

def Sink.write (data : List UInt8) (w : Sink) : Written × Sink :=
  let n := min (w.answers w.writes).count data.length
  ((n, (w.answers w.writes).error), { w with writes := w.writes + 1, accepted := w.accepted ++ data.take n })

structure CrnlWriter where
  w : Sink
  pendingLF : Bool := false

namespace CrnlWriter

/-- A write that fell short without an error. -/
def orShort (err : Option WriteError) : Option WriteError := some (err.getD .shortWrite)

/-- The bytes before the next LF. -/
def writeRun (run : List UInt8) (c : CrnlWriter) : Written × CrnlWriter :=
  if run = [] then ((0, none), c)
  else
    let a := c.w.write run
    ((a.1.1, if a.1.1 ≠ run.length then orShort a.1.2 else a.1.2), { c with w := a.2 })

/-- CR LF, and whether both are written. -/
def writeCRLF (c : CrnlWriter) : (Bool × Option WriteError) × CrnlWriter :=
  let a := c.w.write [CR, LF]
  match a.1.1 with
  | 0 => ((false, orShort a.1.2), { c with w := a.2 })
  | 1 =>
    match a.1.2 with
    | some err => ((false, some err), ⟨a.2, true⟩)
    | none =>
      let b := a.2.write [LF]
      if b.1.1 ≠ 1 then ((false, orShort b.1.2), ⟨b.2, true⟩) else ((true, b.1.2), ⟨b.2, false⟩)
  | 2 => ((true, a.1.2), { c with w := a.2 })
  | _ => ((false, some .shortWrite), { c with w := a.2 })

/-- The loop of `Write`, with nothing pending. -/
def writeLoop (written : ℕ) (p : List UInt8) (c : CrnlWriter) : Written × CrnlWriter :=
  let r := c.writeRun (p.takeWhile (· ≠ LF))
  match r.1.2 with
  | some err => ((written + r.1.1, some err), r.2)
  | none =>
    match _rest : p.dropWhile (· ≠ LF) with
    | [] => ((written + r.1.1, none), r.2)
    | _ :: rest =>
      let l := r.2.writeCRLF
      if l.1.1 = false then ((written + r.1.1, l.1.2), l.2)
      else
        match l.1.2 with
        | some err => ((written + r.1.1 + 1, some err), l.2)
        | none => writeLoop (written + r.1.1 + 1) rest l.2
termination_by p.length
decreasing_by
  have shorter := (List.dropWhile_sublist (· ≠ LF) (l := p)).length_le
  rw [_rest, List.length_cons] at shorter
  omega

/-- An LF that is owed comes first; it is the first byte of the input then. -/
def write (p : List UInt8) (c : CrnlWriter) : Written × CrnlWriter :=
  if c.pendingLF = true then
    let a := c.w.write [LF]
    if a.1.1 = 1 then
      let done := if p.head? = some LF then 1 else 0
      match a.1.2 with
      | some err => ((done, some err), ⟨a.2, false⟩)
      | none => writeLoop done (p.drop done) ⟨a.2, false⟩
    else ((0, orShort a.1.2), { c with w := a.2 })
  else c.writeLoop 0 p

end CrnlWriter

/-- A caller, with what it was told is written of its input. -/
structure Caller where
  consumed : ℕ := 0
  writer : CrnlWriter

/-- A call with some of the bytes that are not reported as written, from the first of them on. -/
def Caller.step (input : List UInt8) (s : Caller) (size : ℕ) : Option Caller :=
  if 0 < size ∧ s.consumed < input.length then
    let a := s.writer.write ((input.drop s.consumed).take size)
    some ⟨s.consumed + a.1.1, a.2⟩
  else none

end Socat.Xio.Filter
