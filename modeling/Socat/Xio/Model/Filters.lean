import Mathlib.Data.List.ReduceOption
import Socat.Machine.Reader

/-! # Reading through the options of an address

`WrapStream` puts readers on top of a stream: `readbytes` stops after so many bytes, the line ending is converted, and
`escape` stops at a byte. The stream below gives its bytes in portions of its own choice, with errors that may be
retried in between, and its end alone or together with the last bytes. What else `WrapStream` does (descriptor mode,
timeouts, `ignoreeof`, `null-eof`, the ways of shutting down) is left out.
-/

namespace Socat.Xio.Filter

open Machine

def CR : UInt8 := 13

def LF : UInt8 := 10

inductive ReadError
  | eof
  | retryable
deriving DecidableEq, Repr

abbrev ByteReader (σ : Type) := Reader σ UInt8 ReadError

abbrev ByteFeed := Feed UInt8 ReadError

/-! ## The stream below -/

/-- What one read gives at most, and its error. -/
structure Portion where
  count : ℕ
  error : Option ReadError
deriving DecidableEq, Repr

structure Source where
  rest : List UInt8
  portions : ℕ → Portion
  reads : ℕ := 0

namespace Source

variable (n : ℕ) (s : Source)

/-- The portion of the next read. -/
def portion : Portion := s.portions s.reads

def taken : ℕ := min s.portion.count n

/-- The end is only reported when nothing is left. -/
def read : Answer UInt8 ReadError × Source :=
  (⟨s.rest.take (s.taken n),
      if s.portion.error = some .eof ∧ s.rest.drop (s.taken n) ≠ [] then none else s.portion.error⟩,
    { s with rest := s.rest.drop (s.taken n), reads := s.reads + 1 })

def reader : ByteReader Source where
  read := read
  left s := s.rest.length
  bounded n s := by
    show (s.rest.take (s.taken n)).length ≤ n
    have small : s.taken n ≤ n := Nat.min_le_right ..
    rw [List.length_take]
    omega
  takes n s := by
    show (s.rest.take (s.taken n)).length + (s.rest.drop (s.taken n)).length ≤ s.rest.length
    rw [List.length_take, List.length_drop]
    omega

def feed (s : Source) : ByteFeed := ⟨Source, reader, s⟩

end Source

variable {σ : Type}

/-! ## readbytes -/

structure Limited (σ : Type) where
  inner : σ
  left : ℕ

def readBytesRead (r : ByteReader σ) (n : ℕ) (s : Limited σ) : Answer UInt8 ReadError × Limited σ :=
  if s.left = 0 then (⟨[], some .eof⟩, s)
  else
    let a := r.read (min n s.left) s.inner
    let left := s.left - a.1.items.length
    (⟨a.1.items, if left = 0 ∧ a.1.error = none then some .eof else a.1.error⟩, ⟨a.2, left⟩)

theorem readBytesRead_zero {r : ByteReader σ} {n : ℕ} {s : Limited σ} (done : s.left = 0) :
    readBytesRead r n s = (⟨[], some .eof⟩, s) := if_pos done

theorem readBytesRead_succ {r : ByteReader σ} {n : ℕ} {s : Limited σ} (more : s.left ≠ 0) :
    readBytesRead r n s =
      (⟨(r.read (min n s.left) s.inner).1.items,
          if s.left - (r.read (min n s.left) s.inner).1.items.length = 0 ∧
            (r.read (min n s.left) s.inner).1.error = none
          then some .eof else (r.read (min n s.left) s.inner).1.error⟩,
        ⟨(r.read (min n s.left) s.inner).2, s.left - (r.read (min n s.left) s.inner).1.items.length⟩) := if_neg more

def readBytesWrap (r : ByteReader σ) : ByteReader (Limited σ) where
  read := readBytesRead r
  left s := r.left s.inner
  bounded n s := by
    by_cases done : s.left = 0
    · rw [readBytesRead_zero done]
      exact Nat.zero_le n
    · rw [readBytesRead_succ done]
      exact (r.bounded _ _).trans (Nat.min_le_left ..)
  takes n s := by
    by_cases done : s.left = 0
    · rw [readBytesRead_zero done]
      exact (Nat.zero_add _).le
    · rw [readBytesRead_succ done]
      exact r.takes _ _

/-- `readbytes=0` is no limit. -/
def applyReadBytes (limit : Option ℕ) (f : ByteFeed) : ByteFeed :=
  match limit with
  | none | some 0 => f
  | some n => ⟨Limited f.σ, readBytesWrap f.reader, ⟨f.state, n⟩⟩

/-! ## Line endings -/

/-- What one byte of the stream becomes, if anything, and what is remembered of it. -/
abbrev Conversion := Bool → UInt8 → Option UInt8 × Bool

/-- The bytes a chunk becomes, and what is remembered of it. -/
def convert (step : Conversion) (saw : Bool) (data : List UInt8) : List UInt8 × Bool :=
  ((transduce step saw data).1.reduceOption, (transduce step saw data).2)

theorem convert_length_le (step : Conversion) (saw : Bool) (data : List UInt8) :
    (convert step saw data).1.length ≤ data.length := by
  refine (List.reduceOption_length_le _).trans (Nat.le_of_eq ?_)
  induction data generalizing saw with
  | nil => rfl
  | cons b rest ih => exact congrArg Nat.succ (ih _)

/-- Reads on as long as a chunk becomes nothing; a chunk never becomes longer, so what it becomes fits. -/
def convertLoop (step : Conversion) (r : ByteReader σ) (n : ℕ) (s : Bool × σ) : Answer UInt8 ReadError × (Bool × σ) :=
  let a := r.read n s.2
  let c := convert step s.1 a.1.items
  if _again : c.1 = [] ∧ a.1.error = none ∧ a.1.items ≠ [] then convertLoop step r n (c.2, a.2)
  else (⟨c.1, a.1.error⟩, (c.2, a.2))
termination_by r.left s.2
decreasing_by
  have taken := r.takes n s.2
  have some : 0 < (r.read n s.2).1.items.length := List.length_pos_iff.mpr _again.2.2
  omega

def convertRead (step : Conversion) (r : ByteReader σ) (n : ℕ) (s : Bool × σ) : Answer UInt8 ReadError × (Bool × σ) :=
  if n = 0 then (⟨[], none⟩, s) else convertLoop step r n s

private theorem convertLoop_bounded (step : Conversion) (r : ByteReader σ) (n : ℕ) (s : Bool × σ) :
    (convertLoop step r n s).1.items.length ≤ n := by
  fun_induction convertLoop step r n s with
  | case1 s a c again ih => exact ih
  | case2 s a c stop => exact (convert_length_le step s.1 _).trans (r.bounded n s.2)

private theorem convertLoop_takes (step : Conversion) (r : ByteReader σ) (n : ℕ) (s : Bool × σ) :
    (convertLoop step r n s).1.items.length + r.left (convertLoop step r n s).2.2 ≤ r.left s.2 := by
  fun_induction convertLoop step r n s with
  | case1 s a c again ih => exact ih.trans (Nat.le_of_add_left_le (r.takes n s.2))
  | case2 s a c stop =>
    have taken := r.takes n s.2
    have shorter := convert_length_le step s.1 (r.read n s.2).1.items
    show (convert step s.1 (r.read n s.2).1.items).1.length + r.left (r.read n s.2).2 ≤ r.left s.2
    omega

def converter (step : Conversion) (r : ByteReader σ) : ByteReader (Bool × σ) where
  read := convertRead step r
  left s := r.left s.2
  bounded n s := by
    unfold convertRead
    split
    · exact Nat.zero_le n
    · exact convertLoop_bounded step r n s
  takes n s := by
    unfold convertRead
    split
    · exact (Nat.zero_add _).le
    · exact convertLoop_takes step r n s

/-- Every CR goes. -/
def crnlStep : Conversion := fun saw b => (if b = CR then none else some b, saw)

/-- CR and LF become LF, but for an LF behind a CR. -/
def crorlfStep : Conversion := fun sawCR b =>
  if sawCR = true ∧ b = LF then (none, false)
  else (some (if b = CR ∨ b = LF then LF else b), b == CR)

def crnlReader (r : ByteReader σ) : ByteReader (Bool × σ) := converter crnlStep r

def crorlfReader (r : ByteReader σ) : ByteReader (Bool × σ) := converter crorlfStep r

def crToLF (b : UInt8) : UInt8 := if b = CR then LF else b

def crReader (r : ByteReader σ) : ByteReader σ where
  read n s := (⟨(r.read n s).1.items.map crToLF, (r.read n s).1.error⟩, (r.read n s).2)
  left := r.left
  bounded n s := by simpa using r.bounded n s
  takes n s := by simpa using r.takes n s

inductive LineEnding
  | raw
  | cr
  | crnl
  | crorlf
deriving DecidableEq, Repr

/-- The reading half of `applyLineTerm`. -/
def applyLineTerm (ending : LineEnding) (f : ByteFeed) : ByteFeed :=
  match ending with
  | .cr => ⟨f.σ, crReader f.reader, f.state⟩
  | .crnl => ⟨Bool × f.σ, crnlReader f.reader, (false, f.state)⟩
  | .crorlf => ⟨Bool × f.σ, crorlfReader f.reader, (false, f.state)⟩
  | .raw => f

/-! ## escape -/

/-- Without a reader below, the state after the escape byte: `EOFReader` has taken its place. -/
def escapeRead (esc : UInt8) (r : ByteReader σ) (n : ℕ) : Option σ → Answer UInt8 ReadError × Option σ
  | none => (⟨[], some .eof⟩, none)
  | some s =>
    let a := r.read n s
    if esc ∈ a.1.items then (⟨a.1.items.takeWhile (· ≠ esc), some .eof⟩, none) else (a.1, some a.2)

def escapeReader (esc : UInt8) (r : ByteReader σ) : ByteReader (Option σ) where
  read := escapeRead esc r
  left s := (s.map r.left).getD 0
  bounded n s := by
    cases s with
    | none => exact Nat.zero_le n
    | some s =>
      simp only [escapeRead]
      split
      · exact (List.takeWhile_sublist _).length_le.trans (r.bounded n s)
      · exact r.bounded n s
  takes n s := by
    cases s with
    | none => exact Nat.le_refl 0
    | some s =>
      simp only [escapeRead]
      split
      · exact ((List.takeWhile_sublist _).length_le.trans (Nat.le_add_right ..)).trans (r.takes n s)
      · exact r.takes n s

def applyEscape (esc : Option UInt8) (f : ByteFeed) : ByteFeed :=
  match esc with
  | none => f
  | some esc => ⟨Option f.σ, escapeReader esc f.reader, some f.state⟩

/-! ## All of them -/

structure Options where
  readBytes : Option ℕ := none
  lineEnding : LineEnding := .raw
  escape : Option UInt8 := none
deriving DecidableEq, Repr

def wrapStream (o : Options) (f : ByteFeed) : ByteFeed :=
  applyEscape o.escape (applyLineTerm o.lineEnding (applyReadBytes o.readBytes f))

end Socat.Xio.Filter
