import Mathlib.Data.List.Basic
import Socat.Xio.Model.Exec

/-! # Quoting for EXEC

Every byte of a command line has a part in it. The arguments are the texts between unquoted spaces, and a list of
arguments that is quoted comes back as it was.
-/

namespace Socat.Xio

open List ExecSplit

/-- What a byte of a command line is there for. -/
inductive Part
  | space
  | delimiter
  | escape
  | text
deriving DecidableEq, Repr

abbrev Marked := List (UInt8 × Part)

/-- The parts of the bytes, from inside quotes or not and behind a backslash there or not. -/
def parts (quoted escaped : Bool) : List UInt8 → Marked
  | [] => []
  | c :: s =>
    if escaped then (c, .text) :: parts quoted false s
    else if c = 0x5c ∧ quoted then (c, .escape) :: parts quoted true s
    else if c = 0x22 then (c, .delimiter) :: parts (!quoted) escaped s
    else if !quoted ∧ c = 0x20 then (c, .space) :: parts quoted escaped s
    else (c, .text) :: parts quoted escaped s

/-- The parts of the bytes behind the leading white space. -/
def commandParts (s : List UInt8) : Marked := parts false false (s.dropWhile isExecProgramSpace)

def texts (bytes : Marked) : List UInt8 := (bytes.filter (·.2 = .text)).map Prod.fst

/-- The bytes between unquoted spaces, where there are any; those in `front` come first. -/
def words (front : Marked) : Marked → List Marked
  | [] => [front].filter (· ≠ [])
  | b :: bytes => if b.2 = .space then [front].filter (· ≠ []) ++ words [] bytes else words (front ++ [b]) bytes

theorem texts_append (a b : Marked) : texts (a ++ b) = texts a ++ texts b := by
  simp [texts]

private theorem texts_words (front bytes : Marked) :
    ((words front bytes).map texts).flatten = texts (front ++ bytes) := by
  have single : ∀ front : Marked, (([front].filter (· ≠ [])).map texts).flatten = texts front := by
    intro front
    by_cases empty : front = [] <;> simp [empty, texts]
  induction bytes generalizing front with
  | nil => rw [words, single, append_nil]
  | cons b bytes ih =>
    unfold words
    split_ifs with space
    · rw [map_append, flatten_append, single, ih, texts_append]
      simp [texts, space]
    · rw [ih, append_assoc]
      rfl

section Loop

variable {x y : ExecSplit} {front : Marked} {c : UInt8} {part : Part}

/-- The loop has read `front` of a word. -/
structure Reading (x : ExecSplit) (front : Marked) : Prop where
  cur : texts front = x.cur
  begun : front ≠ [] ↔ x.sawQuote = true ∨ x.cur ≠ []
  quoted : x.inDouble = true → x.sawQuote = true

theorem Reading.flush (reading : Reading x front) :
    x.flush.args = x.args ++ ([front].filter (· ≠ [])).map texts := by
  by_cases empty : front = []
  · have nothing := reading.begun.not.mp (not_not.mpr empty)
    simp [ExecSplit.flush, empty, if_neg nothing]
  · simp [ExecSplit.flush, empty, if_pos (reading.begun.mp empty), reading.cur]

/-- One more byte of the word. -/
theorem Reading.next (reading : Reading x front) (cur : y.cur = if part = .text then x.cur ++ [c] else x.cur)
    (begun : y.sawQuote = true ∨ y.cur ≠ []) (quoted : y.inDouble = true → y.sawQuote = true) :
    Reading y (front ++ [(c, part)]) := by
  refine ⟨?_, by simpa using begun, quoted⟩
  rw [texts_append, reading.cur, cur]
  split_ifs with text <;> simp [texts, text]

/-- The rest of the loop adds the words of the rest. -/
theorem Reading.scan (reading : Reading x front) (s : List UInt8) : (s.foldl scan x).flush.args =
    x.args ++ (words front (parts x.inDouble x.escape s)).map texts := by
  induction s generalizing x front with
  | nil => exact reading.flush
  | cons c s ih =>
    rw [foldl_cons]
    generalize next : x.scan c = y
    unfold scan at next
    unfold parts
    split_ifs at next ⊢ with escape backslash quote space <;> subst next <;> unfold words
    · apply ih
      exact reading.next rfl (by simp) reading.quoted
    · apply ih
      exact reading.next rfl (.inl (reading.quoted backslash.2)) reading.quoted
    · apply ih
      exact reading.next rfl (.inl rfl) fun _ => rfl
    · have outside : x.inDouble = false := by simpa using space.1
      have flushed : Reading x.flush [] := ⟨rfl, by simp [ExecSplit.flush], by simp [ExecSplit.flush, outside]⟩
      rw [ih flushed, reading.flush, if_pos rfl, map_append, append_assoc]
      rfl
    · apply ih
      exact reading.next rfl (by simp) reading.quoted

end Loop

/-! ## Quoted lists -/

/-- Double quotes and backslashes are escaped. -/
def escapeArg (arg : List UInt8) : List UInt8 := arg.flatMap fun c => if c = 0x22 ∨ c = 0x5c then [0x5c, c] else [c]

def quoteArg (arg : List UInt8) : List UInt8 := 0x22 :: escapeArg arg ++ [0x22]

/-- The arguments behind the first, each after one space and some more. -/
def moreArgs (rest : List (ℕ × List UInt8)) : List UInt8 :=
  rest.flatMap fun (more, arg) => List.replicate (more + 1) 0x20 ++ quoteArg arg

variable (args : List (List UInt8)) (arg : List UInt8)

private theorem scan_escapeArg (cur : List UInt8) :
    (escapeArg arg).foldl scan { args, cur, inDouble := true, sawQuote := true } =
      { args, cur := cur ++ arg, inDouble := true, sawQuote := true } := by
  induction arg generalizing cur with
  | nil => simp [escapeArg]
  | cons c arg ih =>
    unfold escapeArg at ih ⊢
    rw [flatMap_cons, foldl_append]
    split_ifs with special
    · simp [scan, ih]
    · rw [not_or] at special
      simp [scan, special, ih]

theorem scan_quoteArg : (quoteArg arg).foldl scan { args } = { args, cur := arg, sawQuote := true } := by
  unfold quoteArg
  rw [foldl_append, foldl_cons]
  simp [scan, scan_escapeArg]

private theorem scan_spaces (more : ℕ) :
    (List.replicate (more + 1) 0x20).foldl scan { args, cur := arg, sawQuote := true } =
      { args := args ++ [arg] } := by
  induction more with
  | zero => simp [scan, ExecSplit.flush]
  | succ more ih =>
    rw [replicate_succ', foldl_append, ih]
    simp [scan, ExecSplit.flush]

private theorem scan_moreArgs (rest : List (ℕ × List UInt8)) :
    ((moreArgs rest).foldl scan { args, cur := arg, sawQuote := true }).flush.args =
      args ++ arg :: rest.map Prod.snd := by
  induction rest generalizing args arg with
  | nil => simp [moreArgs, ExecSplit.flush]
  | cons entry rest ih =>
    unfold moreArgs at ih ⊢
    rw [flatMap_cons, foldl_append, foldl_append, scan_spaces, scan_quoteArg, ih]
    simp

private theorem drop_skipExecProgramSpace (s : List UInt8) :
    s.drop (skipExecProgramSpace s) = s.dropWhile isExecProgramSpace := by
  induction s with
  | nil => rfl
  | cons c s ih =>
    unfold skipExecProgramSpace
    rw [dropWhile_cons]
    split_ifs
    · exact ih
    · rfl

/-- A quoted list comes back, and any command line is cut at its unquoted spaces into the texts between them. -/
theorem splitExecArgs_quoting (lead : List { c : UInt8 // isExecProgramSpace c = true })
    (rest : List (ℕ × List UInt8)) (s : List UInt8) :
    splitExecArgs (lead.map Subtype.val ++ (quoteArg arg ++ moreArgs rest)) = arg :: rest.map Prod.snd ∧
      splitExecArgs s = (words [] (commandParts s)).map texts ∧
      (splitExecArgs s).flatten = texts (commandParts s) := by
  have cut : splitExecArgs s = (words [] (commandParts s)).map texts := by
    have start : Reading {} [] := ⟨rfl, by simp, nofun⟩
    unfold splitExecArgs
    rw [drop_skipExecProgramSpace, start.scan]
    rfl
  refine ⟨?_, cut, by rw [cut, texts_words, nil_append]⟩
  have white : ∀ c ∈ lead.map Subtype.val, isExecProgramSpace c = true := by
    intro c listed
    obtain ⟨c, -, rfl⟩ := mem_map.mp listed
    exact c.2
  unfold splitExecArgs
  rw [drop_skipExecProgramSpace, dropWhile_append_of_pos white]
  show ((quoteArg arg ++ moreArgs rest).foldl scan {}).flush.args = _
  rw [foldl_append, scan_quoteArg, scan_moreArgs]
  rfl

end Socat.Xio
