import Socat.Xio.Soundness.LineWriter

/-! # Reading does not depend on chunks

Each reader hands out what its option makes of the bytes that are left below, whatever is asked for and however the
stream below cuts them, and it gets to the end if that stream does. A conversion remembers whether its last byte was
a CR, so a CR LF may be cut anywhere.
-/

namespace Socat.Xio.Filter

open Machine List

variable {σ : Type} {r : ByteReader σ} {content : σ → List UInt8} {f : ByteFeed} {items : List UInt8}

/-! ## What the options make of bytes -/

def limited (limit : Option ℕ) (bytes : List UInt8) : List UInt8 :=
  match limit with
  | none | some 0 => bytes
  | some n => bytes.take n

/-- LF for each CR LF, CR and LF. -/
def normalise : List UInt8 → List UInt8
  | [] => []
  | [b] => [crToLF b]
  | b :: c :: rest => if b = CR ∧ c = LF then LF :: normalise rest else crToLF b :: normalise (c :: rest)

def converted (ending : LineEnding) (bytes : List UInt8) : List UInt8 :=
  match ending with
  | .raw => bytes
  | .cr => bytes.map crToLF
  | .crnl => bytes.filter (· ≠ CR)
  | .crorlf => normalise bytes

def escaped (esc : Option UInt8) (bytes : List UInt8) : List UInt8 :=
  match esc with
  | none => bytes
  | some esc => bytes.takeWhile (· ≠ esc)

def filtered (o : Options) (bytes : List UInt8) : List UInt8 :=
  escaped o.escape (converted o.lineEnding (limited o.readBytes bytes))

/-- The LF behind a CR goes with it. -/
def afterCR (saw : Bool) (bytes : List UInt8) : List UInt8 :=
  if saw = true ∧ bytes.head? = some LF then bytes.tail else bytes

theorem normalise_cons (b : UInt8) (rest : List UInt8) :
    normalise (b :: rest) = crToLF b :: normalise (afterCR (b == CR) rest) := by
  cases rest with
  | nil => simp [normalise, afterCR]
  | cons c rest =>
    rw [normalise]
    by_cases pair : b = CR ∧ c = LF
    · obtain ⟨rfl, rfl⟩ := pair
      rfl
    · rw [if_neg pair, afterCR, if_neg (by simpa using pair)]

private theorem normalise_expand {data : List UInt8} (free : CR ∉ data) : normalise (expand data) = data := by
  induction data with
  | nil => rfl
  | cons b rest ih =>
    obtain ⟨here, later⟩ := not_or.mp fun either => free (mem_cons.mpr either)
    show normalise ((if b = LF then [CR, LF] else [b]) ++ expand rest) = b :: rest
    split_ifs with line
    · rw [line]
      exact congrArg (LF :: ·) (ih later)
    · show normalise (b :: expand rest) = _
      rw [normalise_cons, crToLF, if_neg (Ne.symm here), afterCR, if_neg (by simp [Ne.symm here]), ih later]

/-! ## Conversions of chunks -/

private theorem convert_append (step : Conversion) (saw : Bool) (a b : List UInt8) :
    convert step saw (a ++ b) = ((convert step saw a).1 ++ (convert step (convert step saw a).2 b).1,
      (convert step (convert step saw a).2 b).2) := by
  simp [convert, transduce_append, reduceOption_append]

theorem convert_cons (step : Conversion) (saw : Bool) (b : UInt8) (rest : List UInt8) :
    (convert step saw (b :: rest)).1 = (step saw b).1.toList ++ (convert step (step saw b).2 rest).1 := by
  cases made : (step saw b).1 <;> simp [convert, transduce, made]

private theorem convert_crnl (saw : Bool) (data : List UInt8) :
    (convert crnlStep saw data).1 = data.filter (· ≠ CR) := by
  induction data with
  | nil => rfl
  | cons b rest ih =>
    rw [convert_cons, filter_cons]
    by_cases here : b = CR <;> simpa [crnlStep, here] using ih

private theorem convert_crorlf (saw : Bool) (data : List UInt8) :
    (convert crorlfStep saw data).1 = normalise (afterCR saw data) := by
  induction data generalizing saw with
  | nil => simp [afterCR, normalise, convert]
  | cons b rest ih =>
    rw [convert_cons, ih, crorlfStep, afterCR.eq_def saw]
    simp only [head?_cons, Option.some.injEq]
    by_cases behind : saw = true ∧ b = LF
    · rw [if_pos behind, if_pos behind, afterCR, if_neg nofun]
      rfl
    · rw [if_neg behind, if_neg behind, normalise_cons]
      have same : (if b = CR ∨ b = LF then LF else b) = crToLF b := by
        by_cases line : b = LF <;> simp [crToLF, line]
      rw [same]
      rfl

/-! ## What each reader hands out -/

theorem Source.hands : reader.Hands Source.rest .eof where
  kept _ _ := take_append_drop ..
  ended n s ended := by
    by_contra more
    change (if s.portion.error = some .eof ∧ s.rest.drop (s.taken n) ≠ [] then none else s.portion.error) = _ at ended
    split_ifs at ended with early
    exact early ⟨ended, more⟩

section

variable (hands : r.Hands content .eof)
include hands

private theorem readBytesWrap_hands : (readBytesWrap r).Hands (fun s => (content s.inner).take s.left) .eof := by
  refine .of_gives fun n s => ?_
  show Reader.Gives _ _ s (readBytesRead r n s)
  by_cases done : s.left = 0
  · rw [readBytesRead_zero done]
    exact ⟨rfl, fun _ => by dsimp only; rw [done, take_zero]⟩
  · have few := (r.bounded (min n s.left) s.inner).trans (Nat.min_le_right ..)
    have kept := hands.kept (min n s.left) s.inner
    rw [readBytesRead_succ done]
    refine ⟨?_, fun ended => ?_⟩
    · dsimp only
      rw [← kept, take_append, take_of_length_le few]
    · dsimp only at ended ⊢
      split_ifs at ended with last
      · rw [last.1, take_zero]
      · rw [hands.ended _ _ ended, take_nil]

private theorem convertLoop_gives (step : Conversion) (n : ℕ) (s : Bool × σ) :
    Reader.Gives (fun s => (convert step s.1 (content s.2)).1) .eof s (convertLoop step r n s) := by
  fun_induction convertLoop step r n s with
  | case1 s a c again ih =>
    refine ⟨ih.1.trans ?_, ih.2⟩
    dsimp only
    rw [← hands.kept n s.2, convert_append]
    exact (congrArg (· ++ _) again.1).symm
  | case2 s a c stop =>
    refine ⟨?_, fun ended => ?_⟩
    · dsimp only
      rw [← hands.kept n s.2, convert_append]
    · dsimp only
      rw [hands.ended n s.2 ended]
      rfl

private theorem converter_hands (step : Conversion) :
    (converter step r).Hands (fun s => (convert step s.1 (content s.2)).1) .eof := by
  refine .of_gives fun n s => ?_
  show Reader.Gives _ _ s (convertRead step r n s)
  unfold convertRead
  split_ifs
  · exact ⟨rfl, nofun⟩
  · exact convertLoop_gives hands step n s

private theorem crReader_hands : (crReader r).Hands (fun s => (content s).map crToLF) .eof where
  kept n s := by
    rw [← hands.kept n s, map_append]
    rfl
  ended n s ended := congrArg (List.map crToLF) (hands.ended n s ended)

private theorem escapeReader_hands (esc : UInt8) :
    (escapeReader esc r).Hands (fun s => ((s.map content).getD []).takeWhile (· ≠ esc)) .eof := by
  have plain {l : List UInt8} (free : esc ∉ l) : ∀ b ∈ l, decide (b ≠ esc) = true := fun b member =>
    decide_eq_true fun same => free (same ▸ member)
  refine .of_gives fun n s => ?_
  cases s with
  | none => exact ⟨rfl, fun _ => rfl⟩
  | some s =>
    have kept := hands.kept n s
    show Reader.Gives _ _ _ (escapeRead esc r n (some s))
    unfold escapeRead
    dsimp only
    split_ifs with here
    · obtain ⟨before, after, cut, free⟩ := eq_append_cons_of_mem here
      refine ⟨?_, fun _ => rfl⟩
      show _ = (content s).takeWhile _
      rw [← kept, cut, append_assoc, takeWhile_append_of_pos (plain free),
        takeWhile_append_of_pos (plain free)]
      simp
    · refine ⟨?_, fun ended => congrArg _ (hands.ended n s ended)⟩
      show _ = (content s).takeWhile _
      rw [← kept, takeWhile_append_of_pos (plain here)]
      rfl

end

/-! ## Getting to the end -/

/-- Again and again the stream gives something, or its end if nothing is left. -/
structure Lively (portions : ℕ → Portion) : Prop where
  gives : ∀ i, ∃ j ≥ i, 0 < (portions j).count
  ends : ∀ i, ∃ j ≥ i, (portions j).error = some .eof

theorem Source.exhausts {s : Source} (lively : Lively s.portions) : reader.Exhausts .eof s := by
  -- The bytes that are left get fewer, and for the same bytes the next portion that counts comes nearer.
  induction size : s.rest.length using Nat.strong_induction_on generalizing s with
  | _ size fewer =>
    obtain ⟨j, later, due⟩ : ∃ j ≥ s.reads, if s.rest = [] then (s.portions j).error = some .eof
        else 0 < (s.portions j).count := by
      split
      · exact lively.ends s.reads
      · exact lively.gives s.reads
    induction wait : j - s.reads using Nat.strong_induction_on generalizing s with
    | _ wait nearer =>
      refine .intro fun n positive going => ?_
      by_cases still : s.rest.drop (s.taken n) = s.rest
      · have ahead : s.reads < j := by
          refine lt_of_le_of_ne later fun now => ?_
          subst now
          split_ifs at due with none
          · exact going ((if_neg fun early => early.2 (still.trans none)).trans due)
          · have length := congrArg List.length still
            have some := length_pos_iff.mpr none
            have taken : 0 < s.taken n := Nat.lt_min.mpr ⟨due, positive⟩
            rw [length_drop] at length
            omega
        have next : (reader.read n s).2 = { s with reads := s.reads + 1 } := by
          show ({ s with rest := s.rest.drop (s.taken n), reads := s.reads + 1 } : Source) = _
          rw [still]
        rw [next]
        exact nearer (j - (s.reads + 1)) (by omega) lively size ahead due rfl
      · refine fewer _ ?_ lively rfl
        have length : (s.rest.drop (s.taken n)).length < s.rest.length := by
          refine lt_of_le_of_ne (drop_sublist ..).length_le fun same => still ?_
          exact (drop_sublist ..).eq_of_length same
        exact size ▸ length

section

variable {s : σ} (exhausts : r.Exhausts .eof s)
include exhausts

private theorem readBytesWrap_exhausts (left : ℕ) : (readBytesWrap r).Exhausts .eof ⟨s, left⟩ := by
  induction exhausts generalizing left with
  | @intro s next ih =>
    refine .intro fun n positive going => ?_
    change (readBytesRead r n ⟨s, left⟩).1.error ≠ _ at going
    show Reader.Exhausts _ _ (readBytesRead r n ⟨s, left⟩).2
    by_cases done : left = 0
    · rw [readBytesRead_zero done] at going
      exact absurd rfl going
    · rw [readBytesRead_succ done] at going ⊢
      refine ih _ (Nat.lt_min.mpr ⟨positive, Nat.pos_of_ne_zero done⟩) (fun ended => going ?_) _
      dsimp only
      rw [ended]
      exact if_neg fun both => by cases both.2

private theorem convertLoop_exhausts (step : Conversion) (saw : Bool) {n : ℕ} (positive : 0 < n)
    (going : (convertLoop step r n (saw, s)).1.error ≠ some .eof) :
    (converter step r).Exhausts .eof (convertLoop step r n (saw, s)).2 := by
  induction exhausts generalizing saw n with
  | @intro s next ih =>
    rw [convertLoop] at going ⊢
    dsimp only at going ⊢
    split_ifs at going ⊢ with again
    · exact ih n positive (by rw [again.2.1]; nofun) _ positive going
    · refine .intro fun m more unfinished => ?_
      change (convertRead step r m _).1.error ≠ _ at unfinished
      show Reader.Exhausts _ _ (convertRead step r m _).2
      rw [convertRead, if_neg (by omega)] at unfinished ⊢
      exact ih n positive going _ more unfinished

private theorem converter_exhausts (step : Conversion) (saw : Bool) : (converter step r).Exhausts .eof (saw, s) := by
  refine .intro fun n positive going => ?_
  change (convertRead step r n _).1.error ≠ _ at going
  show Reader.Exhausts _ _ (convertRead step r n _).2
  rw [convertRead, if_neg (by omega)] at going ⊢
  exact convertLoop_exhausts exhausts step saw positive going

private theorem crReader_exhausts : (crReader r).Exhausts .eof s := by
  induction exhausts with
  | intro next ih => exact .intro ih

private theorem escapeReader_exhausts (esc : UInt8) : (escapeReader esc r).Exhausts .eof (some s) := by
  induction exhausts with
  | @intro s next ih =>
    refine .intro fun n positive going => ?_
    change (escapeRead esc r n (some s)).1.error ≠ _ at going
    show Reader.Exhausts _ _ (escapeRead esc r n (some s)).2
    unfold escapeRead at going ⊢
    dsimp only at going ⊢
    split_ifs at going ⊢
    · exact absurd rfl going
    · exact ih n positive going

end

/-! ## All of them -/

private theorem applyReadBytes_delivers (delivers : f.Delivers .eof items) (limit : Option ℕ) :
    (applyReadBytes limit f).Delivers .eof (limited limit items) := by
  obtain ⟨content, hands, rfl⟩ := delivers
  match limit with
  | none | some 0 => exact ⟨content, hands, rfl⟩
  | some (n + 1) => exact ⟨_, readBytesWrap_hands hands, rfl⟩

private theorem wrapStream_exhausts (exhausts : f.reader.Exhausts .eof f.state) (o : Options) :
    (wrapStream o f).reader.Exhausts .eof (wrapStream o f).state := by
  have limited : (applyReadBytes o.readBytes f).reader.Exhausts .eof (applyReadBytes o.readBytes f).state :=
    match o.readBytes with
    | none | some 0 => exhausts
    | some (n + 1) => readBytesWrap_exhausts exhausts (n + 1)
  unfold wrapStream
  generalize applyReadBytes o.readBytes f = g at limited ⊢
  have converted : (applyLineTerm o.lineEnding g).reader.Exhausts .eof (applyLineTerm o.lineEnding g).state := by
    cases o.lineEnding with
    | raw => exact limited
    | cr => exact crReader_exhausts limited
    | crnl => exact converter_exhausts limited crnlStep false
    | crorlf => exact converter_exhausts limited crorlfStep false
  cases o.escape with
  | none => exact converted
  | some esc => exact escapeReader_exhausts converted esc

private theorem applyLineTerm_delivers (delivers : f.Delivers .eof items) (ending : LineEnding) :
    (applyLineTerm ending f).Delivers .eof (converted ending items) := by
  obtain ⟨content, hands, rfl⟩ := delivers
  cases ending with
  | raw => exact ⟨content, hands, rfl⟩
  | cr => exact ⟨_, crReader_hands hands, rfl⟩
  | crnl => exact ⟨_, converter_hands hands crnlStep, convert_crnl false _⟩
  | crorlf => exact ⟨_, converter_hands hands crorlfStep, convert_crorlf false _⟩

private theorem applyEscape_delivers (delivers : f.Delivers .eof items) (esc : Option UInt8) :
    (applyEscape esc f).Delivers .eof (escaped esc items) := by
  obtain ⟨content, hands, rfl⟩ := delivers
  cases esc with
  | none => exact ⟨content, hands, rfl⟩
  | some esc => exact ⟨_, escapeReader_hands hands esc, rfl⟩

/-- Whatever the stream's portions and the sizes asked for: the bytes read are a beginning of what the options make of
the stream, all of it once the end is reported, and nothing comes after that. The end is reported sooner or later if
the stream gets there. What `crnl` wrote of lines without CR, `crorlf` reads back. -/
theorem filters_ignore_chunks (o : Options) (bytes : List UInt8) (portions : ℕ → Portion) (sizes : List ℕ) :
    ((wrapStream o (Source.feed { rest := bytes, portions })).answers sizes).flatMap Answer.items <+: filtered o bytes ∧
    (∀ before a after, (wrapStream o (Source.feed { rest := bytes, portions })).answers sizes = before ++ a :: after →
      a.error = some .eof → (before ++ [a]).flatMap Answer.items = filtered o bytes ∧ after.flatMap Answer.items = []) ∧
    (Lively portions → ∀ sizes : ℕ → ℕ, (∀ i, 0 < sizes i) → ∃ k before a,
      (wrapStream o (Source.feed { rest := bytes, portions })).answers ((List.range k).map sizes) = before ++ [a] ∧
        a.error = some .eof ∧ (before ++ [a]).flatMap Answer.items = filtered o bytes) ∧
    (∀ data answers s, Reaches (Caller.step data) ⟨0, ⟨{ answers }, false⟩⟩ s → s.consumed = data.length → CR ∉ data →
      filtered { lineEnding := .crorlf } s.writer.w.accepted = data) := by
  have source : (Source.feed { rest := bytes, portions }).Delivers .eof bytes := ⟨_, Source.hands, rfl⟩
  have delivers := applyEscape_delivers
    (applyLineTerm_delivers (applyReadBytes_delivers source o.readBytes) o.lineEnding) o.escape
  have exhausts := fun lively : Lively portions => wrapStream_exhausts (f := Source.feed { rest := bytes, portions })
    (Source.exhausts lively) o
  refine ⟨delivers.answers_begin sizes, fun _ _ _ => delivers.answers_ended,
    fun lively _ => delivers.answers_all (exhausts lively), fun data answers s reaches all free => ?_⟩
  obtain ⟨-, below, owes⟩ := Caller.exact reaches
  have settled : s.writer.pendingLF ≠ true := fun pending => by
    rw [all, getElem?_length] at owes
    cases owes pending
  rw [all, take_length, if_neg settled, append_nil] at below
  rw [below]
  exact normalise_expand free

/-- The limit ends the stream before its last byte. -/
theorem filters_ignore_chunks_limited : ∃ k before a, (wrapStream { readBytes := some 2, lineEnding := .cr }
        (Source.feed { rest := [97, CR, 98], portions := fun _ => ⟨1, some .eof⟩ })).answers
          ((List.range k).map fun _ => 4) = before ++ [a] ∧
      a.error = some .eof ∧ (before ++ [a]).flatMap Answer.items = [97, LF] := by
  have lively : Lively fun _ => ⟨1, some .eof⟩ := ⟨fun i => ⟨i, le_rfl, by decide⟩, fun i => ⟨i, le_rfl, rfl⟩⟩
  exact (filters_ignore_chunks _ _ _ []).2.2.1 lively (fun _ => 4) fun _ => by decide

end Socat.Xio.Filter
