import Socat.Tcpwrap.Model.Access

/-! # EXCEPT nests to the right

The tokens between the `EXCEPT`s of a list are its sublists. A list admits what its first sublist matches and the
list behind the first `EXCEPT` does not admit. Tokens are looked at from the left, and only as far as that needs: up
to the first hit of a sublist, and nothing behind a sublist without one.
-/

namespace Socat.Tcpwrap

open List

/-! ## What is needed -/

section

variable (token : Text → Bool × Option HostsError)

/-- Every token is looked at and misses. -/
def Misses (list : List Text) : Prop := ∀ tok ∈ list, token tok = (false, none)

/-- The tokens up to the first hit. -/
def Hits (list : List Text) : Prop :=
  ∃ before tok after, list = before ++ tok :: after ∧ Misses token before ∧ token tok = (true, none)

/-- The sublists from here on need the answer of a token: every sublist before its own has a hit, and the tokens
before it in its own miss. -/
def Needs (lists : List (List Text)) (tok : Text) : Prop :=
  ∃ earlier before after later, lists = earlier ++ (before ++ tok :: after) :: later ∧
    (∀ list ∈ earlier, Hits token list) ∧ Misses token before

/-- A result as Go returns it. -/
def goResult : Except HostsError Bool → Bool × Option HostsError
  | .ok verdict => (verdict, none)
  | .error e => (false, some e)

/-- A result of Go whose verdict counts only without an error. -/
def verdictOf : Bool × Option HostsError → Except HostsError Bool
  | (verdict, none) => .ok verdict
  | (_, some e) => .error e

private theorem verdictOf_goResult (result : Except HostsError Bool) : verdictOf (goResult result) = result := by
  cases result <;> rfl

end

/-- A token that is needed fails. -/
def Fails (token : Text → Bool × Option HostsError) (lists : List (List Text)) (e : HostsError) : Prop :=
  ∃ tok, Needs token lists tok ∧ (token tok).2 = some e

section

variable {token : Text → Bool × Option HostsError} {tok : Text} {list : List Text} {rest : List (List Text)}
  {e : HostsError}

theorem misses_cons : Misses token (tok :: list) ↔ token tok = (false, none) ∧ Misses token list :=
  forall_mem_cons

private theorem not_hits_nil : ¬ Hits token [] := by
  rintro ⟨before, tok, after, empty, -⟩
  simp at empty

/-- A hit is at the first token, or behind a miss. -/
theorem hits_cons : Hits token (tok :: list) ↔
    token tok = (true, none) ∨ token tok = (false, none) ∧ Hits token list := by
  constructor
  · rintro ⟨before, t, after, here, misses, hit⟩
    cases before with
    | nil =>
      obtain ⟨rfl, -⟩ := List.cons.inj here
      exact .inl hit
    | cons first before =>
      obtain ⟨rfl, rfl⟩ := List.cons.inj here
      exact .inr ⟨(misses_cons.mp misses).1, before, t, after, rfl, (misses_cons.mp misses).2, hit⟩
  · rintro (hit | ⟨missed, before, t, after, rfl, misses, hit⟩)
    · exact ⟨[], tok, list, rfl, nofun, hit⟩
    · exact ⟨tok :: before, t, after, rfl, misses_cons.mpr ⟨missed, misses⟩, hit⟩

/-- A token is needed in the first sublist, or behind it when that has a hit. -/
theorem needs_cons : Needs token (list :: rest) tok ↔
    (∃ before after, list = before ++ tok :: after ∧ Misses token before) ∨ Hits token list ∧ Needs token rest tok := by
  constructor
  · rintro ⟨earlier, before, after, later, here, hits, misses⟩
    cases earlier with
    | nil =>
      obtain ⟨rfl, -⟩ := List.cons.inj here
      exact .inl ⟨before, after, rfl, misses⟩
    | cons first earlier =>
      obtain ⟨rfl, rfl⟩ := List.cons.inj here
      obtain ⟨hit, others⟩ := forall_mem_cons.mp hits
      exact .inr ⟨hit, earlier, before, after, later, rfl, others, misses⟩
  · rintro (⟨before, after, rfl, misses⟩ | ⟨hit, earlier, before, after, later, rfl, hits, misses⟩)
    · exact ⟨[], before, after, rest, rfl, nofun, misses⟩
    · exact ⟨list :: earlier, before, after, later, rfl, forall_mem_cons.mpr ⟨hit, hits⟩, misses⟩

theorem needs_cons_cons {t : Text} : Needs token ((t :: list) :: rest) tok ↔
    tok = t ∨ token t = (true, none) ∧ Needs token rest tok ∨
      token t = (false, none) ∧ Needs token (list :: rest) tok := by
  rw [needs_cons, needs_cons, hits_cons]
  constructor
  · rintro (⟨before, after, here, misses⟩ | ⟨hit | ⟨missed, hit⟩, needed⟩)
    · cases before with
      | nil =>
        obtain ⟨rfl, -⟩ := List.cons.inj here
        exact .inl rfl
      | cons first before =>
        obtain ⟨rfl, rfl⟩ := List.cons.inj here
        obtain ⟨missed, misses⟩ := misses_cons.mp misses
        exact .inr (.inr ⟨missed, .inl ⟨before, after, rfl, misses⟩⟩)
    · exact .inr (.inl ⟨hit, needed⟩)
    · exact .inr (.inr ⟨missed, .inr ⟨hit, needed⟩⟩)
  · rintro (rfl | ⟨hit, needed⟩ | ⟨missed, ⟨before, after, rfl, misses⟩ | ⟨hit, needed⟩⟩)
    · exact .inl ⟨[], list, rfl, nofun⟩
    · exact .inr ⟨.inl hit, needed⟩
    · exact .inl ⟨t :: before, after, rfl, misses_cons.mpr ⟨missed, misses⟩⟩
    · exact .inr ⟨.inr ⟨missed, hit⟩, needed⟩

private theorem not_fails_nil : ¬ Fails token [] e := by
  rintro ⟨tok, ⟨earlier, before, after, later, here, -⟩, -⟩
  simp at here

/-- Nothing behind a sublist without a hit is needed. -/
private theorem not_fails_empty : ¬ Fails token ([] :: rest) e := by
  rintro ⟨tok, needed, -⟩
  rcases needs_cons.mp needed with ⟨before, after, empty, -⟩ | ⟨hit, -⟩
  · simp at empty
  · exact not_hits_nil hit

/-- A hit ends the sublist, a miss leaves the rest of it. -/
private theorem fails_cons {hit : Bool} (evaluated : token tok = (hit, none)) :
    Fails token ((tok :: list) :: rest) e ↔ Fails token (if hit then rest else list :: rest) e := by
  refine exists_congr fun t => and_congr_left fun failed => ?_
  have other : t ≠ tok := by
    rintro rfl
    rw [evaluated] at failed
    cases failed
  rw [needs_cons_cons, evaluated]
  cases hit <;> simp [other]

private theorem fails_error {verdict : Bool} {e' : HostsError} (failed : token tok = (verdict, some e')) :
    Fails token ((tok :: list) :: rest) e ↔ e' = e := by
  constructor
  · rintro ⟨t, needed, failing⟩
    rw [needs_cons_cons, failed] at needed
    rcases needed with rfl | ⟨found, -⟩ | ⟨missed, -⟩
    · exact Option.some.inj ((congrArg Prod.snd failed).symm.trans failing)
    · cases found
    · cases missed
  · rintro rfl
    exact ⟨tok, needs_cons_cons.mpr (.inl rfl), congrArg Prod.snd failed⟩

end

variable [Surroundings]

/-- `EXCEPT` in any case. -/
def isExcept (tok : Text) : Bool := equalFold tok "EXCEPT".toList

/-- `any(L0) and not (any(L1) and not (…))`. -/
def admits (token : Text → Bool) : List (List Text) → Bool
  | [] => false
  | list :: rest => list.any token && !admits token rest

variable {token : Text → Bool × Option HostsError}

/-! ## The cursor -/

section

variable {evaluate : Text → Except HostsError Bool} {tok : Text} {rest : List Text}

theorem matchListAt_except (ends : isExcept tok = true) (hit : Bool) :
    matchListAt evaluate hit (tok :: rest) = if hit then (!·) <$> matchListAt evaluate false rest else .ok false := by
  rw [matchListAt]
  exact if_pos ends

theorem matchListAt_skip (inside : isExcept tok = false) :
    matchListAt evaluate true (tok :: rest) = matchListAt evaluate true rest := by
  rw [matchListAt]
  exact if_neg (Bool.eq_false_iff.mp inside)

theorem matchListAt_token (inside : isExcept tok = false) :
    matchListAt evaluate false (tok :: rest) = (evaluate tok).bind fun hit => matchListAt evaluate hit rest := by
  rw [matchListAt]
  exact if_neg (Bool.eq_false_iff.mp inside)

end

/-- After a hit the cursor goes to the next `EXCEPT`. -/
private theorem matchListAt_hit (evaluate : Text → Except HostsError Bool) (tokens : List Text) :
    matchListAt evaluate true tokens =
      match tokens.dropWhile fun tok => !isExcept tok with
      | [] => .ok true
      | _ :: rest => (!·) <$> matchListAt evaluate false rest := by
  induction tokens with
  | nil => rfl
  | cons tok rest ih =>
    rw [dropWhile_cons]
    cases ends : isExcept tok with
    | true => exact matchListAt_except ends true
    | false => exact (matchListAt_skip ends).trans ih

/-- What is left at the cursor after the rest of a sublist. -/
private theorem drop_skipSublist (tokens : List Text) (i : ℕ) :
    tokens.drop (skipSublist tokens i) = (tokens.drop i).dropWhile fun tok => !isExcept tok := by
  rw [skipSublist, ← drop_drop]
  conv_lhs =>
    enter [2]
    rw [← takeWhile_append_dropWhile (p := fun tok => !isExcept tok) (l := tokens.drop i)]
  exact drop_left' rfl

/-- The calls that share a cursor compute what the recursion over the remaining tokens does. -/
private theorem matchListCursor_eq (tokens : List Text) (i : ℕ) :
    (matchListCursor token tokens i).1 =
      goResult (matchListAt (fun tok => verdictOf (token tok)) false (tokens.drop i)) := by
  -- the token at the cursor, in front of the rest
  have front : ∀ {i tok}, tokens[i]? = some tok → tokens.drop i = tok :: tokens.drop (i + 1) := by
    intro i tok here
    obtain ⟨inside, rfl⟩ := List.getElem?_eq_some_iff.mp here
    exact drop_eq_getElem_cons inside
  -- what `EXCEPT` leaves of a list with a hit
  have behind : ∀ {i tok}, tokens[i]? = some tok → isExcept tok ≠ true → token tok = (true, none) →
      matchListAt (fun tok => verdictOf (token tok)) false (tokens.drop i) =
        match tokens.drop (skipSublist tokens (i + 1)) with
        | [] => .ok true
        | _ :: rest => (!·) <$> matchListAt (fun tok => verdictOf (token tok)) false rest := by
    intro i tok here inside found
    rw [front here, matchListAt_token (Bool.eq_false_iff.mpr inside), found, drop_skipSublist]
    exact matchListAt_hit ..
  fun_induction matchListCursor token tokens i with
  | case1 i ended =>
    rw [drop_of_length_le (getElem?_eq_none_iff.mp ended)]
    rfl
  | case2 i tok here ends =>
    rw [front here, matchListAt_except ends]
    rfl
  | case3 i tok here inside b e failed =>
    rw [front here, matchListAt_token (Bool.eq_false_iff.mpr inside), failed]
    rfl
  | case4 i tok here inside missed ih =>
    rw [front here, matchListAt_token (Bool.eq_false_iff.mpr inside), missed, ih]
    rfl
  | case5 i tok here inside found ended =>
    rw [behind here inside found, drop_of_length_le ended]
    rfl
  | case6 i tok here inside found more b e last failed ih =>
    rw [behind here inside found, drop_eq_getElem_cons (Nat.not_le.mp more)]
    rw [failed] at ih
    dsimp only
    rw [← verdictOf_goResult (matchListAt _ false (tokens.drop (_ + 1))), ← ih]
    rfl
  | case7 i tok here inside found more excluded last passed ih =>
    rw [behind here inside found, drop_eq_getElem_cons (Nat.not_le.mp more)]
    rw [passed] at ih
    dsimp only
    rw [← verdictOf_goResult (matchListAt _ false (tokens.drop (_ + 1))), ← ih]
    rfl

/-! ## Verdicts -/

theorem splitOnP_eq_cons (tokens : List Text) : ∃ list rest, tokens.splitOnP isExcept = list :: rest :=
  exists_cons_of_ne_nil (splitOnP_ne_nil isExcept tokens)

/-- Without errors, a list whose first sublist has a hit already or not. -/
private theorem matchListAt_eq_admits (token : Text → Bool) {tokens list : List Text} {rest : List (List Text)}
    (sublists : tokens.splitOnP isExcept = list :: rest) (hit : Bool) :
    matchListAt (fun tok => .ok (token tok)) hit tokens = .ok ((hit || list.any token) && !admits token rest) := by
  induction tokens generalizing hit list rest with
  | nil =>
    cases sublists
    simp [matchListAt, admits]
  | cons tok later ih =>
    obtain ⟨first, others, split⟩ := splitOnP_eq_cons later
    rw [splitOnP_cons_eq_if_modifyHead, split] at sublists
    cases ends : isExcept tok with
    | true =>
      rw [if_pos ends] at sublists
      cases sublists
      rw [matchListAt_except ends]
      cases hit with
      | false => rfl
      | true =>
        rw [if_pos rfl, ih split]
        simp [admits]
    | false =>
      rw [if_neg (Bool.eq_false_iff.mp ends)] at sublists
      cases sublists
      cases hit with
      | true =>
        rw [matchListAt_skip ends, ih split]
        simp
      | false =>
        rw [matchListAt_token ends]
        exact (ih split (token tok)).trans (by simp)

/-! ## Errors -/

private theorem matchListAt_eq_error {tokens list : List Text} {rest : List (List Text)} {e : HostsError}
    (sublists : tokens.splitOnP isExcept = list :: rest) (hit : Bool) :
    matchListAt (fun tok => verdictOf (token tok)) hit tokens = .error e ↔
      Fails token (if hit then rest else list :: rest) e := by
  induction tokens generalizing hit list rest with
  | nil =>
    cases sublists
    cases hit
    · simp [matchListAt, not_fails_empty]
    · simp [matchListAt, not_fails_nil]
  | cons tok later ih =>
    obtain ⟨first, others, split⟩ := splitOnP_eq_cons later
    rw [splitOnP_cons_eq_if_modifyHead, split] at sublists
    cases ends : isExcept tok with
    | true =>
      rw [if_pos ends] at sublists
      cases sublists
      rw [matchListAt_except ends]
      cases hit with
      | false => simp [not_fails_empty]
      | true =>
        have inner := ih split false
        simp only [if_true, Bool.false_eq_true, if_false] at inner ⊢
        rw [← inner]
        cases matchListAt (fun tok => verdictOf (token tok)) false later with
        | ok verdict | error e' => simp [Functor.map, Except.map]
    | false =>
      rw [if_neg (Bool.eq_false_iff.mp ends)] at sublists
      cases sublists
      cases hit with
      | true =>
        rw [matchListAt_skip ends]
        exact ih split true
      | false =>
        rw [matchListAt_token ends]
        show _ ↔ Fails token ((tok :: first) :: rest) e
        rcases evaluated : token tok with ⟨found, _ | e'⟩
        · exact (ih split found).trans (fails_cons evaluated).symm
        · rw [fails_error evaluated]
          exact ⟨Except.error.inj, congrArg Except.error⟩

/-- What a list of tokens says: without errors it is the nested reading of its sublists, an error is the one of a
token that this reading has to look at, and with an error there is no match. -/
theorem matchList_except (tokens : List Text) :
    (∀ token : Text → Bool, (matchListCursor (fun tok => (token tok, none)) tokens 0).1 =
      (admits token (tokens.splitOnP isExcept), none)) ∧
    ∀ token : Text → Bool × Option HostsError,
      (∀ e, (matchListCursor token tokens 0).1.2 = some e ↔
        ∃ tok, Needs token (tokens.splitOnP isExcept) tok ∧ (token tok).2 = some e) ∧
      ((matchListCursor token tokens 0).1.2 = none ∨ (matchListCursor token tokens 0).1.1 = false) := by
  obtain ⟨list, rest, sublists⟩ := splitOnP_eq_cons tokens
  refine ⟨fun token => ?_, fun token => ?_⟩
  · rw [matchListCursor_eq, drop_zero]
    show goResult (matchListAt (fun tok => .ok (token tok)) false tokens) = _
    rw [matchListAt_eq_admits token sublists, sublists, Bool.false_or]
    rfl
  · rw [matchListCursor_eq, drop_zero]
    have failing : ∀ e, matchListAt (fun tok => verdictOf (token tok)) false tokens = .error e ↔
        Fails token (tokens.splitOnP isExcept) e := fun e => sublists ▸ matchListAt_eq_error sublists false
    cases outcome : matchListAt (fun tok => verdictOf (token tok)) false tokens with
    | ok verdict =>
      refine ⟨fun e => ?_, .inl rfl⟩
      have none := failing e
      rw [outcome] at none
      exact ⟨nofun, fun needed => nomatch none.mpr needed⟩
    | error e' =>
      refine ⟨fun e => ?_, .inr rfl⟩
      have only := failing e
      rw [outcome] at only
      exact ⟨fun same => only.mp (congrArg Except.error (Option.some.inj same)),
        fun needed => congrArg some (Except.error.inj (only.mpr needed))⟩

end Socat.Tcpwrap
