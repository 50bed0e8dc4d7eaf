import Mathlib

/-! # Reading a hosts_access table

A table is split into logical lines: a backslash before a bare newline joins a line with the next
one. A NUL byte, a logical line of more than 2046 bytes, a missing final newline or a continuation
at the end of the file is a framing error. It ends the table there and is kept beside the lines that
were read before it.
-/

namespace Socat.Tcpwrap

/-- A Go string, with every byte written as the character of that code. -/
abbrev Text := List Char

/-- Why a table or a lookup refuses a peer. -/
inductive HostsError
  /-- `unsupported hosts_access syntax` with the token. -/
  | unsupported (token : Text)
  /-- `unsupported hosts_access syntax: missing ":" in` with the line. -/
  | missingColon (line : Text)
  /-- `tcpwrap reverse lookup timed out` -/
  | lookupTimedOut
  /-- The context of the session has ended. -/
  | cancelled
deriving DecidableEq, Repr

def hostsSyntax (tok : Text) : HostsError := .unsupported tok

def hostsAccessLineMax : ℕ := 2046

structure HostsTable where
  lines : List Text
  frame : Option HostsError
deriving DecidableEq, Repr

/-- What is left of a file; a `broken` reader ends with an error instead of the end of the file. -/
structure Reader where
  rest : Text
  broken : Bool
deriving DecidableEq, Repr

/-- One call of `readHostsPhysical`. -/
inductive Physical
  | line (text : Text) (newline : Bool)
  | eof
  | fault (e : HostsError)
  | failed
deriving DecidableEq, Repr

def readHostsPhysical (broken : Bool) (buf : Text) : Text → Physical × Text
  | [] => (if broken then .failed else if buf = [] then .eof else .line buf false, [])
  | b :: rest =>
    if b = '\n' then (.line buf true, rest)
    else if b = '\x00' then (.fault (hostsSyntax "NUL in hosts_access line".toList), rest)
    else if hostsAccessLineMax ≤ buf.length then
      (.fault (hostsSyntax "line too long".toList), rest)
    else readHostsPhysical broken (buf ++ [b]) rest

private theorem readHostsPhysical_shortens {broken : Bool} {buf rest left text : Text}
    (read : readHostsPhysical broken buf rest = (.line text true, left)) : left.length < rest.length := by
  induction rest generalizing buf with
  | nil =>
    simp only [readHostsPhysical] at read
    split_ifs at read <;> simp at read
  | cons b rest ih =>
    simp only [readHostsPhysical] at read
    split_ifs at read with newline nul long
    · simp_all
    · simp at read
    · simp at read
    · have := ih read
      simp only [List.length_cons]
      omega

/-- `pending` holds the text joined by continuations; it may be empty while `continued`. -/
def parseHostsLines (broken : Bool) (lines : List Text) (pending : Text) (continued : Bool)
    (rest : Text) : Option HostsTable :=
  match _read : readHostsPhysical broken [] rest with
  | (.eof, _) =>
    if continued then
      some ⟨lines, some (hostsSyntax "continuation at end of file".toList)⟩
    else some ⟨lines, none⟩
  | (.fault e, _) => some ⟨lines, some e⟩
  | (.failed, _) => none
  | (.line _ false, _) => some ⟨lines, some (hostsSyntax "missing newline".toList)⟩
  | (.line phys true, left) =>
    -- a carriage return before the newline keeps a backslash from continuing the line
    if hostsAccessLineMax < pending.length + phys.length then
      some ⟨lines, some (hostsSyntax "line too long".toList)⟩
    else if phys.getLast? = some '\\' then
      parseHostsLines broken lines (pending ++ phys.dropLast) true left
    else
      let phys := if phys.getLast? = some '\r' then phys.dropLast else phys
      parseHostsLines broken (lines ++ [if continued then pending ++ phys else phys]) [] false left
termination_by rest.length
decreasing_by all_goals exact readHostsPhysical_shortens _read

/-- `none` is an error of the reader. -/
def parseHostsTable (r : Reader) : Option HostsTable := parseHostsLines r.broken [] [] false r.rest

/-- What `os.Open` gave for a table. -/
inductive Opened
  | missing
  | denied
  | reader (r : Reader)
deriving DecidableEq, Repr

/-- `none` stands for `read tcpwrapper table` with the path and its cause. -/
def readHostsTable (path : Text) (required : Bool) (opened : Opened) : Option HostsTable :=
  if path = [] then some ⟨[], none⟩
  else match opened with
    | .missing => if required then none else some ⟨[], none⟩
    | .denied => none
    | .reader r => parseHostsTable r

end Socat.Tcpwrap
