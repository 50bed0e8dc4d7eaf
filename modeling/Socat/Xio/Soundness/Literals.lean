import Socat.Xio.Model.Range

/-! # Literal addresses

Which texts the address parser accepts, and how they are cut apart when they are part of a longer text.
-/

namespace Socat.Xio

open List
open Tcpwrap (IP Addr Text to4 is4In6 mappedHead cut containsAny stripBrackets isDigit digitValue)

/-! ## Cutting -/

variable {c : Char} {s digits : Text} {quad : IP}

theorem all_ne (absent : c ∉ s) : ∀ x ∈ s, decide (x ≠ c) = true :=
  fun _ member => decide_eq_true fun same => absent (same ▸ member)

theorem cut_append {before after : Text} (absent : c ∉ before) :
    cut (before ++ c :: after) c = (before, some after) := by
  have all := all_ne absent
  unfold cut
  rw [dropWhile_append_of_pos all, takeWhile_append_of_pos all]
  simp

theorem cut_absent (absent : c ∉ s) : cut s c = (s, none) := by
  unfold cut
  rw [dropWhile_eq_nil_iff.mpr (all_ne absent)]

private theorem cut_none {address : Text} (uncut : cut s c = (address, none)) : address = s := by
  by_cases present : c ∈ s
  · obtain ⟨before, after, rfl, absent⟩ := eq_append_cons_of_mem present
    rw [cut_append absent] at uncut
    cases uncut
  · rw [cut_absent present] at uncut
    cases uncut
    rfl

theorem cutLast_append {before after : Text} (absent : c ∉ after) :
    cutLast (before ++ c :: after) c = some (before, after) := by
  have all := all_ne (mt mem_reverse.mp absent)
  unfold cutLast
  rw [reverse_append, reverse_cons, append_assoc, dropWhile_append_of_pos all,
    takeWhile_append_of_pos all]
  simp

theorem cutLast_absent (absent : c ∉ s) : cutLast s c = none := by
  unfold cutLast
  rw [dropWhile_eq_nil_iff.mpr (all_ne (mt mem_reverse.mp absent))]

theorem exists_last (present : c ∈ s) : ∃ before after, s = before ++ c :: after ∧ c ∉ after := by
  obtain ⟨after, before, same, absent⟩ := eq_append_cons_of_mem (mem_reverse.mpr present)
  refine ⟨before.reverse, after.reverse, ?_, fun member => absent (mem_reverse.mp member)⟩
  rw [← reverse_reverse s, same]
  simp

private theorem dropWhile_isSpace (visible : ∀ c ∈ s, isSpace c = false) : s.dropWhile isSpace = s := by
  cases s with
  | nil => rfl
  | cons c s =>
    have first := visible c mem_cons_self
    rw [dropWhile_cons, if_neg (by simp [first])]

theorem trimSpace_visible (visible : ∀ c ∈ s, isSpace c = false) : trimSpace s = s := by
  unfold trimSpace
  rw [dropWhile_isSpace visible, dropWhile_isSpace fun c member => visible c (mem_reverse.mp member),
    reverse_reverse]

/-! ## Dotted addresses -/

/-- What the parser of the four fields accepts. -/
theorem parseIPv4Fields_spec {fields ip : IP} {val digLen : ℕ}
    (parsed : parseIPv4Fields fields val digLen s = some ip) (few : fields.length ≤ 3) :
    (∀ c ∈ s, isDigit c = true ∨ c = '.') ∧ fields.length + s.count '.' = 3 ∧ ip.length = 4 := by
  induction s generalizing fields val digLen with
  | nil =>
    unfold parseIPv4Fields at parsed
    split at parsed
    · cases parsed
    · cases parsed
      refine ⟨fun c member => absurd member not_mem_nil, ?_, ?_⟩
      · rw [count_nil]
        omega
      · rw [length_append, length_singleton]
        omega
  | cons c s ih =>
    unfold parseIPv4Fields at parsed
    split_ifs at parsed with digit _ _ dot _ three
    · obtain ⟨chars, dots, length⟩ := ih parsed few
      refine ⟨forall_mem_cons.mpr ⟨.inl digit, chars⟩, ?_, length⟩
      · rw [count_cons_of_ne (by rintro rfl; cases digit)]
        exact dots
    · subst dot
      obtain ⟨chars, dots, length⟩ := ih parsed (by rw [length_append, length_singleton]; omega)
      refine ⟨forall_mem_cons.mpr ⟨.inr rfl, chars⟩, ?_, length⟩
      · rw [length_append, length_singleton] at dots
        rw [count_cons_self]
        omega

/-! ## Groups of hexadecimal digits -/

/-- Two bytes are written as one to four digits. -/
structure Group (digits : Text) : Prop where
  hex : ∀ c ∈ digits, isHex c = true
  nonempty : digits ≠ []

/-- The texts the loop of the parser accepts, from the bytes and the ellipsis it has before to those it has at the
end. -/
inductive Groups : IP → Option ℕ → Text → IP → Option ℕ → Prop
  | full {ip : IP} {ellipsis : Option ℕ} : ip.length = 16 → Groups ip ellipsis [] ip ellipsis
  | quad {ip quad : IP} {ellipsis : Option ℕ} {s : Text} : parseIPv4Fields [] 0 0 s = some quad → ip.length ≤ 12 →
      (ellipsis = none → ip.length = 12) → Groups ip ellipsis s (ip ++ quad) ellipsis
  | last {ip : IP} {ellipsis : Option ℕ} {digits : Text} : Group digits → ip.length ≤ 14 →
      Groups ip ellipsis digits (ip ++ groupBytes digits) ellipsis
  | closing {ip : IP} {digits : Text} : Group digits → ip.length ≤ 14 →
      Groups ip none (digits ++ [':', ':']) (ip ++ groupBytes digits) (some (ip ++ groupBytes digits).length)
  | ellipsis {ip ip' : IP} {e : Option ℕ} {digits s : Text} : Group digits → s ≠ [] →
      Groups (ip ++ groupBytes digits) (some (ip ++ groupBytes digits).length) s ip' e →
      Groups ip none (digits ++ ':' :: ':' :: s) ip' e
  | more {ip ip' : IP} {e e' : Option ℕ} {digits s : Text} : Group digits → s ≠ [] → s.head? ≠ some ':' →
      Groups (ip ++ groupBytes digits) e s ip' e' → Groups ip e (digits ++ ':' :: s) ip' e'

private theorem groups_of_parse {room : ℕ} {ip ip' : IP} {e e' : Option ℕ} (fits : ip.length + 2 * room = 16)
    (parsed : parseGroups room ip e s = some (ip', e', [])) : Groups ip e s ip' e' := by
  induction room generalizing ip e s with
  | zero =>
    cases parsed
    exact .full fits
  | succ room ih =>
    have text : s = s.takeWhile isHex ++ s.dropWhile isHex := takeWhile_append_dropWhile.symm
    have hex : ∀ c ∈ s.takeWhile isHex, isHex c = true := fun c member => mem_takeWhile_imp member
    unfold parseGroups at parsed
    dsimp only at parsed
    generalize s.takeWhile isHex = digits at text hex parsed
    generalize s.dropWhile isHex = rest at text parsed
    have grown : (ip ++ groupBytes digits).length + 2 * room = 16 := by
      rw [length_append]
      show ip.length + 2 + 2 * room = 16
      omega
    split at parsed
    · cases parsed
    · rename_i small
      have group : Group digits := ⟨hex, fun none => small (.inl none)⟩
      split at parsed
      · -- an IPv4 address
        split_ifs at parsed with misplaced long
        obtain ⟨quad, fields, same⟩ := Option.map_eq_some_iff.mp parsed
        cases same
        refine .quad fields (by omega) fun none => ?_
        by_contra other
        exact misplaced ⟨none, other⟩
      · rw [append_nil] at text
        subst text
        cases parsed
        exact .last group (by omega)
      · cases parsed
      · split_ifs at parsed with second done
        · obtain rfl := Option.not_isSome_iff_eq_none.mp second
          subst done text
          cases parsed
          exact .closing group (by omega)
        · obtain rfl := Option.not_isSome_iff_eq_none.mp second
          subst text
          exact .ellipsis group done (ih grown parsed)
      · rename_i rest single double
        subst text
        refine .more group ?_ ?_ (ih grown parsed)
        · rintro rfl
          exact single rfl
        · intro first
          obtain ⟨tail, rfl⟩ := head?_eq_some_iff.mp first
          exact double tail rfl
      · cases parsed

def literalChar (c : Char) : Bool := isHex c || c = ':' || c = '.'

theorem isHex_of_isDigit (digit : isDigit c = true) : isHex c = true := by
  unfold isHex hexDigit
  rw [if_pos digit]
  rfl

theorem Group.colon (group : Group digits) : ':' ∉ digits := by
  intro member
  have hex := group.hex ':' member
  cases hex

theorem Group.dot (group : Group digits) : '.' ∉ digits := by
  intro member
  have hex := group.hex '.' member
  cases hex

theorem Group.literal (group : Group digits) : ∀ c ∈ digits, literalChar c = true := by
  intro c member
  unfold literalChar
  rw [group.hex c member]
  rfl

/-- What the text of a dotted address is made of. -/
theorem quad_text (parsed : parseIPv4Fields [] 0 0 s = some quad) :
    (∀ c ∈ s, literalChar c = true) ∧ ':' ∉ s ∧ s.count '.' = 3 ∧ quad.length = 4 := by
  obtain ⟨chars, dots, length⟩ := parseIPv4Fields_spec parsed (Nat.zero_le 3)
  refine ⟨?_, ?_, ?_, length⟩
  · intro c member
    unfold literalChar
    rcases chars c member with digit | rfl
    · rw [isHex_of_isDigit digit]
      rfl
    · rfl
  · intro member
    rcases chars ':' member with digit | same
    · cases digit
    · cases same
  · rw [length_nil] at dots
    omega

namespace Groups

variable {ip ip' : IP} {e e' : Option ℕ} {s : Text}

section

variable (groups : Groups ip e s ip' e')
include groups

theorem chars : ∀ c ∈ s, literalChar c = true := by
  induction groups with
  | full => exact fun c member => absurd member not_mem_nil
  | quad parsed => exact (quad_text parsed).1
  | last group => exact group.literal
  | closing group => exact forall_mem_append.mpr ⟨group.literal, by simp [literalChar]⟩
  | ellipsis group _ _ ih =>
    refine forall_mem_append.mpr ⟨group.literal, forall_mem_cons.mpr ⟨rfl, ?_⟩⟩
    exact forall_mem_cons.mpr ⟨rfl, ih⟩
  | more group _ _ _ ih => exact forall_mem_append.mpr ⟨group.literal, forall_mem_cons.mpr ⟨rfl, ih⟩⟩

theorem length_le : ip'.length ≤ 16 := by
  induction groups with
  | full whole => omega
  | quad parsed fits =>
    rw [length_append, (quad_text parsed).2.2.2]
    omega
  | last group fits | closing group fits =>
    rw [length_append]
    exact Nat.add_le_add_right fits 2
  | ellipsis _ _ _ ih => exact ih
  | more _ _ _ _ ih => exact ih

/-- The ellipsis is within the bytes. -/
theorem position (inside : ∀ n, e = some n → n ≤ ip.length) : ∀ n, e' = some n → n ≤ ip'.length := by
  induction groups with
  | full => exact inside
  | quad | last =>
    intro n here
    rw [length_append]
    exact Nat.le_add_right_of_le (inside n here)
  | closing =>
    intro n here
    cases here
    exact le_rfl
  | ellipsis _ _ _ ih =>
    apply ih
    intro n here
    cases here
    exact le_rfl
  | more _ _ _ _ ih =>
    apply ih
    intro n here
    rw [length_append]
    exact Nat.le_add_right_of_le (inside n here)

theorem head_ne_colon : s.head? ≠ some ':' := by
  have first : ∀ {digits rest : Text}, Group digits → (digits ++ rest).head? ≠ some ':' := by
    intro digits rest group same
    obtain ⟨c, digits, rfl⟩ := exists_cons_of_ne_nil group.nonempty
    cases same
    exact group.colon mem_cons_self
  cases groups with
  | full => nofun
  | quad parsed =>
    intro same
    obtain ⟨tail, rfl⟩ := head?_eq_some_iff.mp same
    exact (quad_text parsed).2.1 mem_cons_self
  | last group => exact (append_nil s) ▸ first group
  | closing group | ellipsis group | more group => exact first group

theorem nonempty (room : ip.length < 16) : s ≠ [] := by
  rintro rfl
  generalize text : ([] : Text) = s at groups
  cases groups with
  | full whole => omega
  | quad parsed =>
    subst text
    cases (quad_text parsed).2.2.1
  | last group => exact group.nonempty text.symm
  | closing | ellipsis | more => simp at text

/-- Where the dots of an accepted text are: in a dotted address at its end. -/
theorem dotted (dot : '.' ∈ s) : ∃ t q quad, s = t ++ q ∧ parseIPv4Fields [] 0 0 q = some quad ∧ '.' ∉ t ∧
      (t = [] ∧ (e = none → ip.length = 12) ∨ ∃ before, t = before ++ [':']) := by
  induction groups with
  | full => cases dot
  | quad parsed fits misplaced => exact ⟨[], _, _, rfl, parsed, not_mem_nil, .inl ⟨rfl, misplaced⟩⟩
  | last group => exact absurd dot group.dot
  | closing group => simp [group.dot] at dot
  | @ellipsis _ _ _ digits _ group _ _ ih =>
    obtain ⟨t, q, quad, rfl, parsed, free, shape⟩ := ih (by simpa [group.dot] using dot)
    refine ⟨digits ++ ':' :: ':' :: t, q, quad, by simp, parsed, by simp [group.dot, free], .inr ?_⟩
    rcases shape with ⟨rfl, -⟩ | ⟨before, rfl⟩
    · exact ⟨digits ++ [':'], by simp⟩
    · exact ⟨digits ++ ':' :: ':' :: before, by simp⟩
  | @more _ _ _ _ digits _ group _ _ _ ih =>
    obtain ⟨t, q, quad, rfl, parsed, free, shape⟩ := ih (by simpa [group.dot] using dot)
    refine ⟨digits ++ ':' :: t, q, quad, by simp, parsed, by simp [group.dot, free], .inr ?_⟩
    rcases shape with ⟨rfl, -⟩ | ⟨before, rfl⟩
    · exact ⟨digits, by simp⟩
    · exact ⟨digits ++ ':' :: before, by simp⟩

end

/-- What follows the colon behind a group. -/
theorem behind_group {rest : Text} (groups : Groups ip e (digits ++ ':' :: rest) ip' e')
    (group : Group digits) : rest = [':'] ∨
      (∃ s, rest = ':' :: s ∧ Groups (ip ++ groupBytes digits) (some (ip ++ groupBytes digits).length) s ip' e') ∨
      rest.head? ≠ some ':' ∧ Groups (ip ++ groupBytes digits) e rest ip' e' := by
  have same : ∀ {other rest' : Text}, Group other → digits ++ ':' :: rest = other ++ ':' :: rest' →
      digits = other ∧ rest = rest' := by
    intro other rest' group' texts
    have parts := (cut_append group.colon).symm.trans ((congrArg (cut · ':') texts).trans (cut_append group'.colon))
    cases parts
    exact ⟨rfl, rfl⟩
  generalize text : digits ++ ':' :: rest = s at groups
  cases groups with
  | full =>
    have colon : ':' ∈ digits ++ ':' :: rest := by simp
    rw [text] at colon
    cases colon
  | quad parsed =>
    subst text
    exact absurd (by simp) (quad_text parsed).2.1
  | last group' =>
    subst text
    exact absurd (by simp) group'.colon
  | closing group' =>
    obtain ⟨rfl, rfl⟩ := same group' text
    exact .inl rfl
  | ellipsis group' _ rest' =>
    obtain ⟨rfl, rfl⟩ := same group' text
    exact .inr (.inl ⟨_, rfl, rest'⟩)
  | more group' _ single rest' =>
    obtain ⟨rfl, rfl⟩ := same group' text
    exact .inr (.inr ⟨single, rest'⟩)

/-- A dotted address has only one reading. -/
theorem of_quad (groups : Groups ip e s ip' e') (parsed : parseIPv4Fields [] 0 0 s = some quad) :
    ip' = ip ++ quad ∧ e' = e := by
  obtain ⟨-, colon, dots, -⟩ := quad_text parsed
  have dot : '.' ∈ s := count_pos_iff.mp (by omega)
  cases groups with
  | full => cases dot
  | quad parsed' =>
    cases parsed.symm.trans parsed'
    exact ⟨rfl, rfl⟩
  | last group => exact absurd dot group.dot
  | closing | ellipsis | more => exact absurd (by simp) colon

/-- A text read on its own, and with a dotted address behind it. -/
theorem append_quad {ipA ipB : IP} {eA eB : Option ℕ} {t q : Text} (alone : Groups ip e t ipB eB)
    (both : Groups ip e (t ++ ':' :: q) ipA eA) (parsed : parseIPv4Fields [] 0 0 q = some quad)
    (nonempty : t ≠ []) (free : '.' ∉ t) : ipA = ipB ++ quad ∧ eA = eB := by
  obtain ⟨-, colon, dots, -⟩ := quad_text parsed
  have plain : q.head? ≠ some ':' := by
    intro first
    obtain ⟨tail, rfl⟩ := head?_eq_some_iff.mp first
    exact colon mem_cons_self
  induction alone with
  | full => exact absurd rfl nonempty
  | quad parsed' =>
    obtain ⟨-, -, dots, -⟩ := quad_text parsed'
    exact absurd (count_pos_iff.mp (by omega)) free
  | last group =>
    rcases both.behind_group group with rfl | ⟨s, rfl, -⟩ | ⟨-, rest⟩
    · exact absurd rfl plain
    · exact absurd rfl plain
    · exact rest.of_quad parsed
  | closing group =>
    rw [append_assoc] at both
    rcases both.behind_group group with same | ⟨s, same, rest⟩ | ⟨single, -⟩
    · cases same
    · cases same
      exact absurd rfl rest.head_ne_colon
    · exact absurd rfl single
  | ellipsis group filled _ ih =>
    rw [append_assoc] at both
    rcases both.behind_group group with same | ⟨s, same, rest⟩ | ⟨single, -⟩
    · simp at same
    · cases same
      exact ih rest filled (fun member => free (by simp [member]))
    · exact absurd rfl single
  | @more _ _ _ _ _ s group filled single _ ih =>
    have first : (s ++ ':' :: q).head? ≠ some ':' := by
      obtain ⟨c, s, rfl⟩ := exists_cons_of_ne_nil filled
      exact single
    rw [append_assoc, cons_append] at both
    rcases both.behind_group group with same | ⟨s', same, -⟩ | ⟨-, rest⟩
    · exact absurd (by rw [same]; rfl) first
    · exact absurd (by rw [same]; rfl) first
    · exact ih rest filled (fun member => free (by simp [member]))

end Groups

/-! ## Texts of IPv6 addresses -/

/-- The zeros an ellipsis stands for. -/
theorem expandGroups_some {ip bytes : IP} {e : Option ℕ} (expanded : expandGroups (ip, e, s) = some bytes) :
    s = [] ∧ (e = none ∧ 16 ≤ ip.length ∧ bytes = ip ∨
      ∃ n, e = some n ∧ ip.length < 16 ∧ bytes = ip.take n ++ List.replicate (16 - ip.length) 0 ++ ip.drop n) := by
  unfold expandGroups at expanded
  dsimp only at expanded
  split at expanded
  · cases expanded
  · rename_i used
    refine ⟨not_not.mp used, ?_⟩
    split at expanded
    · split_ifs at expanded with short
      cases expanded
      exact .inl ⟨rfl, by omega, rfl⟩
    · split_ifs at expanded with short
      cases expanded
      exact .inr ⟨_, rfl, short, rfl⟩

/-- The texts of IPv6 addresses without a zone, with the groups before the zeros are put in. -/
inductive Hextets : Text → IP → Prop
  | zero : Hextets [':', ':'] (List.replicate 16 0)
  | leading {s : Text} {ip bytes : IP} {e : Option ℕ} : s ≠ [] → Groups [] (some 0) s ip e →
      expandGroups (ip, e, []) = some bytes → Hextets (':' :: ':' :: s) bytes
  | plain {s : Text} {ip bytes : IP} {e : Option ℕ} : Groups [] none s ip e →
      expandGroups (ip, e, []) = some bytes → Hextets s bytes

theorem hextets_of_parse {bytes : IP} (parsed : parseHextets s = some bytes) : Hextets s bytes := by
  have loop : ∀ {e : Option ℕ} {s : Text}, (parseGroups 8 [] e s).bind expandGroups = some bytes →
      ∃ ip e', Groups [] e s ip e' ∧ expandGroups (ip, e', []) = some bytes := by
    intro e s found
    obtain ⟨⟨ip, e', rest⟩, groups, expanded⟩ := Option.bind_eq_some_iff.mp found
    obtain ⟨rfl, -⟩ := expandGroups_some expanded
    exact ⟨ip, e', groups_of_parse rfl groups, expanded⟩
  unfold parseHextets at parsed
  split at parsed
  · cases parsed
    exact .zero
  · rename_i rest other
    obtain ⟨ip, e', groups, expanded⟩ := loop parsed
    refine .leading ?_ groups expanded
    rintro rfl
    exact other rfl
  · obtain ⟨ip, e', groups, expanded⟩ := loop parsed
    exact .plain groups expanded

namespace Hextets

variable {s : Text} {bytes : IP}

theorem length_eq (hextets : Hextets s bytes) : bytes.length = 16 := by
  have expand : ∀ {e e' : Option ℕ} {s : Text} {ip : IP}, (∀ n, e = some n → n ≤ 0) → Groups [] e s ip e' →
      expandGroups (ip, e', []) = some bytes → bytes.length = 16 := by
    intro e e' s ip start groups expanded
    obtain ⟨-, ⟨-, long, rfl⟩ | ⟨n, rfl, short, rfl⟩⟩ := expandGroups_some expanded
    · exact le_antisymm groups.length_le long
    · have inside := groups.position start n rfl
      simp only [length_append, length_take, length_replicate, length_drop]
      omega
  cases hextets with
  | zero => rfl
  | leading _ groups expanded =>
    refine expand (fun n here => ?_) groups expanded
    cases here
    exact le_rfl
  | plain groups expanded =>
    refine expand (fun n here => ?_) groups expanded
    cases here

theorem chars (hextets : Hextets s bytes) : ∀ c ∈ s, literalChar c = true := by
  cases hextets with
  | zero => simp [literalChar]
  | leading _ groups => exact forall_mem_cons.mpr ⟨rfl, forall_mem_cons.mpr ⟨rfl, groups.chars⟩⟩
  | plain groups => exact groups.chars

/-- A text with dots ends with a dotted address, and there are colons before the one in front of that. -/
theorem dotted (hextets : Hextets s bytes) (dot : '.' ∈ s) :
    ∃ t q quad, s = t ++ ':' :: q ∧ parseIPv4Fields [] 0 0 q = some quad ∧ ':' ∈ t ∧ '.' ∉ t := by
  cases hextets with
  | zero => simp at dot
  | leading _ groups =>
    obtain ⟨t, q, quad, rfl, parsed, free, ⟨rfl, -⟩ | ⟨before, rfl⟩⟩ := groups.dotted (by simpa using dot)
    · exact ⟨[':'], q, quad, rfl, parsed, mem_singleton_self _, by simp⟩
    · refine ⟨':' :: ':' :: before, q, quad, by simp, parsed, mem_cons_self, fun member => free ?_⟩
      simpa using member
  | plain groups =>
    -- the dotted address takes the place of two groups, so others precede it
    cases groups with
    | full => cases dot
    | quad _ _ misplaced => cases misplaced rfl
    | last group => exact absurd dot group.dot
    | closing group => simp [group.dot] at dot
    | @ellipsis _ _ _ digits _ group _ rest =>
      have later : ∀ before : Text, '.' ∉ before → '.' ∉ digits ++ ':' :: before := by
        intro before free
        simp [group.dot, free]
      obtain ⟨t, q, quad, rfl, parsed, free, ⟨rfl, -⟩ | ⟨before, rfl⟩⟩ := rest.dotted (by simpa [group.dot] using dot)
      · exact ⟨digits ++ [':'], q, quad, by simp, parsed, by simp, later [] not_mem_nil⟩
      · refine ⟨digits ++ ':' :: ':' :: before, q, quad, by simp, parsed, by simp, later _ fun member => free ?_⟩
        simpa using member
    | @more _ _ _ _ digits _ group _ _ rest =>
      obtain ⟨t, q, quad, rfl, parsed, free, ⟨rfl, misplaced⟩ | ⟨before, rfl⟩⟩ :=
        rest.dotted (by simpa [group.dot] using dot)
      · cases misplaced rfl
      · refine ⟨digits ++ ':' :: before, q, quad, by simp, parsed, by simp, fun member => free ?_⟩
        simpa [group.dot] using member

/-- A text read on its own, and with a dotted address behind it: the groups behind the ellipsis move up. -/
theorem append_quad {t q : Text} {whole alone : IP} (both : Hextets (t ++ ':' :: q) whole)
    (only : Hextets t alone) (parsed : parseIPv4Fields [] 0 0 q = some quad) (free : '.' ∉ t) :
    ∃ front back n, 0 < n ∧ alone = front ++ List.replicate (n + 4) 0 ++ back ∧
      whole = front ++ List.replicate n 0 ++ back ++ quad := by
  have length := (quad_text parsed).2.2.2
  have expand : ∀ {e e' : Option ℕ} {t : Text} {ip ip' : IP}, (∀ n, e = some n → n ≤ 0) → t ≠ [] → '.' ∉ t →
      Groups [] e t ip e' → expandGroups (ip, e', []) = some alone →
      (∃ e'', Groups [] e (t ++ ':' :: q) ip' e'' ∧ expandGroups (ip', e'', []) = some whole) →
      ∃ front back n, 0 < n ∧ alone = front ++ List.replicate (n + 4) 0 ++ back ∧
        whole = front ++ List.replicate n 0 ++ back ++ quad := by
    rintro e e' t ip ip' start filled free groups expanded ⟨e'', groups', expanded'⟩
    obtain ⟨rfl, rfl⟩ := groups.append_quad groups' parsed filled free
    have fits := groups'.length_le
    rw [length_append, length] at fits
    obtain ⟨-, ⟨-, long, -⟩ | ⟨n, rfl, short, rfl⟩⟩ := expandGroups_some expanded
    · omega
    · obtain ⟨-, ⟨absent, -⟩ | ⟨m, same, short', rfl⟩⟩ := expandGroups_some expanded'
      · cases absent
      · cases same
        have inside := groups.position start n rfl
        rw [length_append, length] at short'
        refine ⟨ip.take n, ip.drop n, 16 - (ip.length + 4), by omega, ?_, ?_⟩
        · rw [show 16 - ip.length = 16 - (ip.length + 4) + 4 by omega]
        · rw [take_append_of_le_length inside, drop_append_of_le_length inside, length_append, length]
          simp only [append_assoc]
  generalize text : t ++ ':' :: q = s at both
  cases only with
  | zero =>
    subst text
    cases both with
    | leading _ groups' | plain groups' => exact absurd rfl groups'.head_ne_colon
  | @leading t' _ _ _ filled groups expanded =>
    cases both with
    | zero => simp at text
    | leading _ groups' expanded' =>
      cases text
      refine expand (fun n here => ?_) filled (by simpa using free) groups expanded ⟨_, groups', expanded'⟩
      cases here
      exact le_rfl
    | plain groups' =>
      subst text
      exact absurd rfl groups'.head_ne_colon
  | plain groups expanded =>
    have filled := groups.nonempty (Nat.zero_lt_succ 15)
    have first : s.head? ≠ some ':' := by
      obtain ⟨c, t', rfl⟩ := exists_cons_of_ne_nil filled
      subst text
      exact groups.head_ne_colon
    cases both with
    | zero | leading => exact absurd rfl first
    | plain groups' expanded' =>
      subst text
      refine expand (fun n here => ?_) filled free groups expanded ⟨_, groups', expanded'⟩
      cases here

/-- With the dotted address behind it, the text of a mapped address is not the text of that address. -/
theorem append_quad_ne {t q : Text} {whole alone : IP} (both : Hextets (t ++ ':' :: q) whole)
    (only : Hextets t alone) (parsed : parseIPv4Fields [] 0 0 q = some quad) (free : '.' ∉ t)
    (mapped : alone.take 12 = mappedHead) : whole ≠ alone := by
  intro same
  have length := (quad_text parsed).2.2.2
  have total := only.length_eq
  obtain ⟨front, back, n, positive, rfl, rfl⟩ := both.append_quad only parsed free
  simp only [length_append, length_replicate] at total
  have head : ∀ i < 12, (front ++ List.replicate (n + 4) 0 ++ back)[i]? = mappedHead[i]? := by
    intro i inside
    rw [← mapped, getElem?_take_of_lt inside]
  by_cases early : front.length + n + 4 ≤ 10
  · -- the bytes behind the zeros stand four places earlier in the other text
    have left := head 10 (by omega)
    have right := head 6 (by omega)
    rw [← same, getElem?_append_left (by simp only [length_append, length_replicate]; omega),
      getElem?_append_right (by simp only [length_append, length_replicate]; omega)] at right
    rw [getElem?_append_right (by simp only [length_append, length_replicate]; omega)] at left
    simp only [length_append, length_replicate] at left right
    rw [show 10 - (front.length + (n + 4)) = 6 - (front.length + n) by omega, right] at left
    cases left
  · -- the zeros reach into the last bytes of the head
    have zero := head (max 10 front.length) (by omega)
    rw [getElem?_append_left (by simp only [length_append, length_replicate]; omega),
      getElem?_append_right (by omega), getElem?_replicate, if_pos (by omega)] at zero
    rcases (show max 10 front.length = 10 ∨ max 10 front.length = 11 by omega) with ten | eleven
    · rw [ten] at zero
      cases zero
    · rw [eleven] at zero
      cases zero

end Hextets

/-! ## Texts of addresses -/

theorem parseAddr_of_quad (parsed : parseIPv4Fields [] 0 0 s = some quad) : parseAddr s = some ⟨quad, []⟩ := by
  obtain ⟨chars, dots, -⟩ := parseIPv4Fields_spec parsed (Nat.zero_le 3)
  have dot : '.' ∈ s := count_pos_iff.mp (by rw [length_nil] at dots; omega)
  have first : s.find? (fun c => c = '.' ∨ c = ':' ∨ c = '%') = some '.' := by
    obtain ⟨before, after, rfl, absent⟩ := eq_append_cons_of_mem dot
    rw [find?_append, find?_eq_none.mpr, find?_cons_of_pos] <;> try rfl
    intro c member
    rcases chars c (mem_append_left _ member) with digit | rfl
    · simp only [decide_eq_true_eq]
      rintro (rfl | rfl | rfl) <;> cases digit
    · exact absurd member absent
  unfold parseAddr
  rw [first]
  unfold parseIPv4
  rw [parsed]
  rfl

/-- A text without dots and without a zone. -/
theorem parseAddr_of_colon {a : Addr} (parsed : parseAddr s = some a) (dot : '.' ∉ s) (scope : '%' ∉ s) :
    Hextets s a.bytes ∧ a.zone = [] := by
  unfold parseAddr at parsed
  split at parsed
  · rename_i first
    exact absurd (mem_of_find?_eq_some first) dot
  · unfold parseIPv6 at parsed
    rw [cut_absent scope] at parsed
    obtain ⟨bytes, hextets, rfl⟩ := Option.map_eq_some_iff.mp parsed
    exact ⟨hextets_of_parse hextets, rfl⟩
  · cases parsed

/-- The text is an address without a zone. -/
structure Literal (s : Text) (a : Addr) : Prop where
  parsed : parseAddr s = some a
  unscoped : a.zone = []

namespace Literal

variable {s : Text} {a : Addr}

section

variable (literal : Literal s a)
include literal

/-- It is of four fields, or of groups. -/
theorem shape : parseIPv4Fields [] 0 0 s = some a.bytes ∨ ':' ∈ s ∧ Hextets s a.bytes := by
  obtain ⟨parsed, unscoped⟩ := literal
  unfold parseAddr at parsed
  split at parsed
  · obtain ⟨bytes, fields, rfl⟩ := Option.map_eq_some_iff.mp parsed
    exact .inl fields
  · rename_i first
    refine .inr ⟨mem_of_find?_eq_some first, ?_⟩
    unfold parseIPv6 at parsed
    split at parsed
    · rename_i address uncut
      obtain ⟨bytes, hextets, rfl⟩ := Option.map_eq_some_iff.mp parsed
      exact cut_none uncut ▸ hextets_of_parse hextets
    · cases parsed
    · rename_i filled _
      obtain ⟨bytes, -, rfl⟩ := Option.map_eq_some_iff.mp parsed
      exact absurd unscoped filled
  · cases parsed

theorem chars : ∀ c ∈ s, literalChar c = true := by
  rcases literal.shape with fields | ⟨-, hextets⟩
  · exact (quad_text fields).1
  · exact hextets.chars

theorem length_eq : a.bytes.length = 4 ∨ a.bytes.length = 16 := by
  rcases literal.shape with fields | ⟨-, hextets⟩
  · exact .inl (quad_text fields).2.2.2
  · exact .inr hextets.length_eq

theorem four (short : a.bytes.length = 4) : parseIPv4Fields [] 0 0 s = some a.bytes := by
  rcases literal.shape with fields | ⟨-, hextets⟩
  · exact fields
  · have long := hextets.length_eq
    omega

theorem sixteen (long : a.bytes.length = 16) : Hextets s a.bytes := by
  rcases literal.shape with fields | ⟨-, hextets⟩
  · have short := (quad_text fields).2.2.2
    omega
  · exact hextets

theorem nonempty : s ≠ [] := by
  rintro rfl
  cases literal.parsed

theorem absent (other : literalChar c = false) : c ∉ s := by
  intro member
  rw [literal.chars c member] at other
  cases other

/-- `net.ParseIP` of the text. -/
theorem parseIP_eq : parseIP s = to16 a.bytes := by
  unfold parseIP
  rw [literal.parsed, Option.bind_some, if_pos literal.unscoped]

end

end Literal

/-! ## Brackets -/

/-- A text in brackets, or as it is. -/
def bracket (brackets : Bool) (s : Text) : Text := if brackets then '[' :: (s ++ [']']) else s

theorem stripBrackets_bracket {s : Text} (free : '[' ∉ s) (brackets : Bool) :
    stripBrackets (bracket brackets s) = s := by
  unfold stripBrackets bracket
  cases brackets with
  | true =>
    have last : ('[' :: (s ++ [']'])).getLast? = some ']' := by
      rw [← cons_append]
      exact getLast?_concat
    rw [if_pos rfl, if_pos ⟨by simp, rfl, last⟩]
    exact dropLast_concat
  | false =>
    rw [if_neg Bool.false_ne_true, if_neg]
    rintro ⟨-, first, -⟩
    exact free (mem_of_head? first)

theorem mem_bracket {brackets : Bool} (member : c ∈ bracket brackets s) :
    c ∈ s ∨ brackets = true ∧ (c = '[' ∨ c = ']') := by
  unfold bracket at member
  split_ifs at member with inside
  · simp only [mem_cons, mem_append, not_mem_nil, or_false] at member
    tauto
  · exact .inl member

end Socat.Xio
