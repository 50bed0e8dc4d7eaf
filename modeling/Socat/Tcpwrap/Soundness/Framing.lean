import Socat.Tcpwrap.Model.Table

/-! # The logical lines of a table

What a table should be split into is said without a reader: newlines end the pieces, a piece that ends with a
backslash is joined with the next one, and the last piece of a line loses a carriage return at its end.
`parseHostsTable` gives these lines as far as none of them has a NUL byte or is too long, and complains if one of
them has, or if something unfinished is left.
-/

namespace Socat.Tcpwrap

open List

/-! ## The reference -/

/-- The pieces that a newline ends. -/
def pieces (s : Text) : List Text := (s.splitOn '\n').dropLast

/-- What stands behind the last newline. -/
def remainder (s : Text) : Text := (s.splitOn '\n').getLastD []

/-- A backslash directly before the newline. -/
def continues (piece : Text) : Bool := piece.getLast? = some '\\'

/-- The pieces of every logical line, and those of one that is not finished. -/
def groups : List Text → List (List Text) × List Text
  | [] => ([], [])
  | piece :: rest =>
    if continues piece then
      match (groups rest).1 with
      | [] => ([], piece :: (groups rest).2)
      | group :: more => ((piece :: group) :: more, (groups rest).2)
    else ([piece] :: (groups rest).1, (groups rest).2)

/-- One carriage return before the newline is dropped. -/
def chomp (piece : Text) : Text := if piece.getLast? = some '\r' then piece.dropLast else piece

/-- The text of a logical line: the pieces that are joined lose their backslash. -/
def joined : List Text → Text
  | [] => []
  | [piece] => chomp piece
  | piece :: rest => piece.dropLast ++ joined rest

/-- A piece has no NUL byte, and with it the text that was joined so far is not too long. -/
def fits (before : ℕ) (piece : Text) : Bool :=
  piece.all (· ≠ '\x00') && decide (before + piece.length ≤ hostsAccessLineMax)

def framed (before : ℕ) : List Text → Bool
  | [] => true
  | piece :: rest => fits before piece && framed (before + piece.dropLast.length) rest

/-- The logical lines up to the first that is not framed. -/
def logicalLines (s : Text) : List Text := ((groups (pieces s)).1.takeWhile (framed 0)).map joined

/-- Every line is framed, none is left unfinished, and a newline ends the last one. -/
def wellFramed (s : Text) : Bool :=
  (groups (pieces s)).1.all (framed 0) && (groups (pieces s)).2.isEmpty && (remainder s).isEmpty

/-! ## Pieces -/

section

variable {body rest : Text}

theorem splitOn_line (whole : '\n' ∉ body) : (body ++ '\n' :: rest).splitOn '\n' = body :: rest.splitOn '\n' :=
  splitOn_append_cons_self_of_not_mem whole rest

theorem pieces_line (whole : '\n' ∉ body) : pieces (body ++ '\n' :: rest) = body :: pieces rest := by
  rw [pieces, splitOn_line whole, dropLast_cons_of_ne_nil (splitOn_ne_nil _ _)]
  rfl

theorem remainder_line (whole : '\n' ∉ body) : remainder (body ++ '\n' :: rest) = remainder rest := by
  obtain ⟨first, others, split⟩ := exists_cons_of_ne_nil (splitOn_ne_nil '\n' rest)
  rw [remainder, remainder, splitOn_line whole, split]
  rfl

private theorem pieces_unended (whole : '\n' ∉ body) : pieces body = [] := by
  rw [pieces, splitOn_eq_singleton whole]
  rfl

private theorem remainder_unended (whole : '\n' ∉ body) : remainder body = body := by
  rw [remainder, splitOn_eq_singleton whole]
  rfl

end

/-! ## Lines of several pieces -/

section

variable {opened : List Text} {piece : Text}

/-- Pieces that all continue belong to the first line of what follows. -/
theorem groups_append (continuing : ∀ p ∈ opened, continues p = true) (rest : List Text) :
    groups (opened ++ rest) =
      match (groups rest).1 with
      | [] => ([], opened ++ (groups rest).2)
      | group :: more => ((opened ++ group) :: more, (groups rest).2) := by
  induction opened with
  | nil =>
    rcases split : groups rest with ⟨_ | ⟨group, more⟩, left⟩ <;> simp [split]
  | cons p others ih =>
    obtain ⟨first, later⟩ := forall_mem_cons.mp continuing
    rw [cons_append, groups, if_pos first, ih later]
    rcases groups rest with ⟨_ | ⟨group, more⟩, left⟩ <;> rfl

theorem framed_append (before : ℕ) (rest : List Text) :
    framed before (opened ++ rest) =
      (framed before opened && framed (before + (opened.flatMap List.dropLast).length) rest) := by
  induction opened generalizing before with
  | nil => simp [framed]
  | cons p others ih =>
    rw [cons_append, framed, ih, framed, Bool.and_assoc, flatMap_cons, length_append, Nat.add_assoc]

private theorem joined_append : joined (opened ++ [piece]) = opened.flatMap List.dropLast ++ chomp piece := by
  induction opened with
  | nil => rfl
  | cons p others ih =>
    obtain ⟨first, more, split⟩ :=
      exists_cons_of_ne_nil (append_ne_nil_of_right_ne_nil others (by simp) : others ++ [piece] ≠ [])
    rw [cons_append, split, joined, ← split, ih, flatMap_cons, append_assoc]
    simp

end

/-! ## The reader -/

/-- A piece is read up to its newline, or refused. -/
private theorem readHostsPhysical_line {body : Text} (whole : '\n' ∉ body) (rest buf : Text)
    (short : buf.length ≤ hostsAccessLineMax) :
    if fits buf.length body then readHostsPhysical false buf (body ++ '\n' :: rest) = (.line (buf ++ body) true, rest)
    else ∃ e left, readHostsPhysical false buf (body ++ '\n' :: rest) = (.fault e, left) := by
  induction body generalizing buf with
  | nil =>
    rw [if_pos (by simpa [fits] using short)]
    simp [readHostsPhysical]
  | cons b body ih =>
    obtain ⟨other, later⟩ := not_or.mp (mt mem_cons.mpr whole)
    rw [cons_append, readHostsPhysical, if_neg (Ne.symm other)]
    by_cases nul : b = '\x00'
    · rw [if_neg (by simp [fits, nul]), if_pos nul]
      exact ⟨_, _, rfl⟩
    · rw [if_neg nul]
      by_cases long : hostsAccessLineMax ≤ buf.length
      · rw [if_neg (by simp only [fits, length_cons, Bool.and_eq_true, decide_eq_true_eq]; omega), if_pos long]
        exact ⟨_, _, rfl⟩
      · rw [if_neg long]
        have shorter : (buf ++ [b]).length ≤ hostsAccessLineMax := by
          rw [length_append, length_singleton]
          omega
        have next := ih later (buf ++ [b]) shorter
        have same : fits (buf ++ [b]).length body = fits buf.length (b :: body) := by
          simp [fits, nul, Nat.add_assoc, Nat.add_comm 1]
        rw [same] at next
        simpa using next

private theorem readHostsPhysical_unended {buf body : Text} (whole : '\n' ∉ body) (some : buf ++ body ≠ []) :
    (∃ text, (readHostsPhysical false buf body).1 = .line text false) ∨
      ∃ e, (readHostsPhysical false buf body).1 = .fault e := by
  induction body generalizing buf with
  | nil =>
    rw [append_nil] at some
    simp [readHostsPhysical, some]
  | cons b body ih =>
    obtain ⟨other, later⟩ := not_or.mp (mt mem_cons.mpr whole)
    rw [readHostsPhysical, if_neg (Ne.symm other)]
    split_ifs
    · exact .inr ⟨_, rfl⟩
    · exact .inr ⟨_, rfl⟩
    · exact ih later (by simp)

/-! ## The table -/

section

variable {opened : List Text} {body : Text}

private theorem fits_iff (before : ℕ) (piece : Text) :
    fits before piece = true ↔ fits 0 piece = true ∧ before + piece.length ≤ hostsAccessLineMax := by
  simp only [fits, Bool.and_eq_true, decide_eq_true_eq]
  constructor
  · rintro ⟨clean, short⟩
    exact ⟨⟨clean, by omega⟩, short⟩
  · rintro ⟨⟨clean, -⟩, short⟩
    exact ⟨clean, short⟩

/-- The first line of what is left, with the pieces of it that were read. -/
theorem groups_ended (continuing : ∀ p ∈ opened, continues p = true) (ends : continues body = false)
    (more : List Text) :
    groups (opened ++ body :: more) = ((opened ++ [body]) :: (groups more).1, (groups more).2) := by
  rw [groups_append continuing, groups, if_neg (Bool.eq_false_iff.mp ends)]

/-- A piece that does not fit spoils its line, finished or not. -/
private theorem unframed (continuing : ∀ p ∈ opened, continues p = true)
    (spoilt : framed 0 (opened ++ [body]) = false) (more : List Text) :
    (groups (opened ++ body :: more)).1.takeWhile (framed 0) = [] ∧
      ((groups (opened ++ body :: more)).1.all (framed 0) && (groups (opened ++ body :: more)).2.isEmpty) = false := by
  cases ends : continues body with
  | false =>
    rw [groups_ended continuing ends]
    simp [spoilt]
  | true =>
    have together : ∀ p ∈ opened ++ [body], continues p = true := by
      intro p member
      rcases mem_append.mp member with old | new
      · exact continuing p old
      · exact mem_singleton.mp new ▸ ends
    rw [← singleton_append, ← append_assoc, groups_append together]
    rcases groups more with ⟨_ | ⟨group, others⟩, left⟩
    · simp
    · have first : framed 0 (opened ++ [body] ++ group) = false := by rw [framed_append, spoilt, Bool.false_and]
      rw [takeWhile_cons, all_cons, first]
      exact ⟨rfl, rfl⟩

private theorem continuing_append (continuing : ∀ p ∈ opened, continues p = true) (ends : continues body = true) :
    ∀ p ∈ opened ++ [body], continues p = true := by
  intro p member
  rcases mem_append.mp member with old | new
  · exact continuing p old
  · exact mem_singleton.mp new ▸ ends

private theorem framed_concat (fine : framed 0 opened = true) :
    framed 0 (opened ++ [body]) = fits (opened.flatMap List.dropLast).length body := by
  rw [framed_append, fine, Nat.zero_add, framed, framed, Bool.and_true, Bool.true_and]

end

/-- The reader stops at a fault, or at text that no newline ends. -/
private theorem parseHostsLines_stop {s : Text} (stops : (∃ text, (readHostsPhysical false [] s).1 = .line text false) ∨
      ∃ e, (readHostsPhysical false [] s).1 = .fault e) (lines : List Text) (pending : Text) (continued : Bool) :
    ∃ e, parseHostsLines false lines pending continued s = some ⟨lines, some e⟩ := by
  unfold parseHostsLines
  split <;> rename_i read <;> simp only [read, reduceCtorEq, exists_false, or_false, false_or, Physical.line.injEq,
    Bool.true_eq_false, and_false] at stops
  · exact ⟨_, rfl⟩
  · exact ⟨_, rfl⟩

/-- The reader has a piece. -/
private theorem parseHostsLines_line {phys left s : Text}
    (read : readHostsPhysical false [] s = (.line phys true, left))
    (lines : List Text) (pending : Text) (continued : Bool) :
    parseHostsLines false lines pending continued s =
      if hostsAccessLineMax < pending.length + phys.length then
        some ⟨lines, some (hostsSyntax "line too long".toList)⟩
      else if continues phys then parseHostsLines false lines (pending ++ phys.dropLast) true left
      else
        parseHostsLines false (lines ++ [if continued then pending ++ chomp phys else chomp phys]) [] false left := by
  rw [parseHostsLines]
  split <;> rename_i other <;> rw [read] at other <;> cases other
  simp only [continues, decide_eq_true_eq, chomp]

private theorem parseHostsLines_end (lines : List Text) (pending : Text) (continued : Bool) :
    parseHostsLines false lines pending continued [] =
      some ⟨lines, if continued then some (hostsSyntax "continuation at end of file".toList) else none⟩ := by
  rw [parseHostsLines]
  split <;> rename_i other <;> cases other
  cases continued <;> rfl

/-- The reader has read `lines`, and some pieces of the line it is in. -/
private theorem parseHostsLines_eq (lines : List Text) {opened : List Text}
    (continuing : ∀ p ∈ opened, continues p = true)
    (fine : framed 0 opened = true) (s : Text) :
    ∃ frame, parseHostsLines false lines (opened.flatMap List.dropLast) (!opened.isEmpty) s =
        some ⟨lines ++ ((groups (opened ++ pieces s)).1.takeWhile (framed 0)).map joined, frame⟩ ∧
      (frame = none ↔ ((groups (opened ++ pieces s)).1.all (framed 0) && (groups (opened ++ pieces s)).2.isEmpty &&
        (remainder s).isEmpty) = true) := by
  by_cases ended : '\n' ∈ s
  · obtain ⟨body, rest, rfl, whole⟩ := eq_append_cons_of_mem ended
    rw [pieces_line whole, remainder_line whole]
    have read := readHostsPhysical_line whole rest [] (Nat.zero_le _)
    rw [length_nil, nil_append] at read
    by_cases clean : fits 0 body = true
    · rw [if_pos clean] at read
      rw [parseHostsLines_line read]
      by_cases long : hostsAccessLineMax < (opened.flatMap List.dropLast).length + body.length
      · rw [if_pos long]
        have spoilt : framed 0 (opened ++ [body]) = false := by
          rw [framed_concat fine, Bool.eq_false_iff, ne_eq, fits_iff]
          omega
        obtain ⟨none, broken⟩ := unframed continuing spoilt (pieces rest)
        rw [none, broken]
        exact ⟨_, by rw [map_nil, append_nil], by simp⟩
      · rw [if_neg long]
        have framing : framed 0 (opened ++ [body]) = true := by
          rw [framed_concat fine, fits_iff]
          exact ⟨clean, Nat.not_lt.mp long⟩
        cases ends : continues body with
        | true =>
          have next := parseHostsLines_eq lines (continuing_append continuing ends) framing rest
          rw [show (!(opened ++ [body]).isEmpty) = true by cases opened <;> rfl] at next
          simpa using next
        | false =>
          rw [if_neg Bool.false_ne_true, groups_ended continuing ends, takeWhile_cons_of_pos framing, all_cons,
            framing, Bool.true_and, map_cons, joined_append]
          have text : (if !opened.isEmpty then opened.flatMap List.dropLast ++ chomp body else chomp body) =
              opened.flatMap List.dropLast ++ chomp body := by
            cases opened <;> rfl
          have nothing : ∀ p ∈ ([] : List Text), continues p = true := nofun
          rw [text]
          simpa using parseHostsLines_eq (lines ++ [opened.flatMap List.dropLast ++ chomp body]) nothing rfl rest
    · rw [if_neg clean] at read
      obtain ⟨e, left, failed⟩ := read
      obtain ⟨e', stopped⟩ := parseHostsLines_stop (.inr ⟨e, congrArg Prod.fst failed⟩) lines
        (opened.flatMap List.dropLast) (!opened.isEmpty)
      have spoilt : framed 0 (opened ++ [body]) = false := by
        rw [framed_concat fine, Bool.eq_false_iff, ne_eq, fits_iff]
        exact fun both => clean both.1
      obtain ⟨none, broken⟩ := unframed continuing spoilt (pieces rest)
      rw [none, broken, stopped]
      exact ⟨_, by rw [map_nil, append_nil], by simp⟩
  · rw [pieces_unended ended, remainder_unended ended, append_nil]
    have alone : groups opened = ([], opened) := by simpa [groups] using groups_append continuing []
    rw [alone]
    by_cases nothing : s = []
    · rw [nothing, parseHostsLines_end]
      refine ⟨_, by rw [takeWhile_nil, map_nil, append_nil], ?_⟩
      cases opened <;> simp
    · obtain ⟨e, stopped⟩ := parseHostsLines_stop (readHostsPhysical_unended ended nothing) lines
        (opened.flatMap List.dropLast) (!opened.isEmpty)
      exact ⟨some e, by simpa using stopped, by simp [nothing]⟩
termination_by s.length

/-! ## Plain lines -/

/-- A line that nothing has to be done about. -/
structure Plain (line : Text) : Prop where
  short : line.length ≤ hostsAccessLineMax
  clean : '\x00' ∉ line
  single : '\n' ∉ line
  unreturned : line.getLast? ≠ some '\r'
  ended : line.getLast? ≠ some '\\'

/-- Plain lines are their own pieces, groups and texts. -/
private theorem logicalLines_plain {lines : List Text} (plain : ∀ line ∈ lines, Plain line) :
    logicalLines (lines.flatMap (· ++ ['\n'])) = lines ∧ wellFramed (lines.flatMap (· ++ ['\n'])) = true := by
  unfold logicalLines wellFramed
  induction lines with
  | nil => exact ⟨rfl, rfl⟩
  | cons line rest ih =>
    obtain ⟨here, later⟩ := forall_mem_cons.mp plain
    obtain ⟨same, fine⟩ := ih later
    have framing : framed 0 [line] = true := by
      have clean : line.all (· ≠ '\x00') = true := by
        rw [all_eq_true]
        intro c member
        simpa using fun nul : c = '\x00' => here.clean (nul ▸ member)
      simp only [framed, fits, clean, Nat.zero_add, here.short, decide_true, Bool.and_self]
    have ends : continues line = false := decide_eq_false here.ended
    have flat : (line :: rest).flatMap (· ++ ['\n']) = line ++ '\n' :: rest.flatMap (· ++ ['\n']) := by simp
    rw [flat, pieces_line here.single, remainder_line here.single, groups, if_neg (Bool.eq_false_iff.mp ends),
      takeWhile_cons_of_pos framing, map_cons, same, all_cons, framing, Bool.true_and]
    exact ⟨by rw [joined, chomp, if_neg here.unreturned], fine⟩

/-- A table is read as its logical lines up to the first that is not framed, with a framing error exactly when there
is something to complain about; and plain lines are read as they are. -/
theorem hosts_table_lines :
    (∀ s : Text, ∃ frame, parseHostsTable ⟨s, false⟩ = some ⟨logicalLines s, frame⟩ ∧
      (frame = none ↔ wellFramed s = true)) ∧
    ∀ lines : List Text, (∀ line ∈ lines, Plain line) →
      parseHostsTable ⟨lines.flatMap (· ++ ['\n']), false⟩ = some ⟨lines, none⟩ := by
  have read : ∀ s : Text, ∃ frame, parseHostsTable ⟨s, false⟩ = some ⟨logicalLines s, frame⟩ ∧
      (frame = none ↔ wellFramed s = true) := by
    intro s
    have nothing : ∀ p ∈ ([] : List Text), continues p = true := nofun
    exact parseHostsLines_eq [] nothing rfl s
  refine ⟨read, fun lines plain => ?_⟩
  obtain ⟨same, fine⟩ := logicalLines_plain plain
  obtain ⟨frame, parsed, unframed⟩ := read (lines.flatMap (· ++ ['\n']))
  rw [parsed, same, unframed.mpr fine]

theorem hosts_table_lines_plain :
    Plain "ALL: ALL".toList ∧
      parseHostsTable ⟨"ALL: ALL\nsshd: 10.0.0.1\n".toList, false⟩ =
        some ⟨["ALL: ALL".toList, "sshd: 10.0.0.1".toList], none⟩ := by
  have first : Plain "ALL: ALL".toList := ⟨by decide, by decide, by decide, by decide, by decide⟩
  have second : Plain "sshd: 10.0.0.1".toList := ⟨by decide, by decide, by decide, by decide, by decide⟩
  refine ⟨first, hosts_table_lines.2 ["ALL: ALL".toList, "sshd: 10.0.0.1".toList] ?_⟩
  intro line member
  rcases mem_pair.mp member with rfl | rfl
  exacts [first, second]

end Socat.Tcpwrap
