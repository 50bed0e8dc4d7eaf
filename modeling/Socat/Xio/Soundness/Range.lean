import Socat.Xio.Soundness.Literals

/-! # The spellings of a range

A network is an address and a number of its leading bits. The spellings of it are compiled to matchers in
different ways. They agree on every peer unless the mask leaves room for both families, or an IPv6 address
is written with a dotted part where a mask could stand.
-/

namespace Socat.Xio

open List
open Tcpwrap (IP Addr Text to4 is4In6 mappedHead ipEqual cut containsAny stripBrackets isDigit digitValue)

/-! ## Families -/

/-- The address in the width of another one. -/
def inWidth (length : ℕ) (ip : IP) : Option IP := if length = 4 then to4 ip else to16 ip

/-- The peer has the family of the network and agrees with it in the first bits. -/
def InNetwork (a : IP) (k : ℕ) (p : IP) : Prop :=
  (to4 p).isSome = (to4 a).isSome ∧ ∃ q, inWidth a.length p = some q ∧ (bits q).take k = (bits a).take k

/-- The address of a peer. -/
def PeerIP (p : IP) : Prop := p.length = 4 ∨ p.length = 16

variable {ip a : IP} {k : ℕ} {s spec : Text}

theorem to4_of_four (short : ip.length = 4) : to4 ip = some ip := if_pos short

theorem to4_of_sixteen (long : ip.length = 16) : to4 ip = if is4In6 ip then some (ip.drop 12) else none := by
  unfold to4
  rw [if_neg (by omega)]

theorem to16_of_four (short : ip.length = 4) : to16 ip = some (mappedHead ++ ip) := if_pos short

theorem to16_of_sixteen (long : ip.length = 16) : to16 ip = some ip := by
  unfold to16
  rw [if_neg (by omega), if_pos long]

theorem is4In6_iff (long : ip.length = 16) : is4In6 ip = true ↔ ip.take 12 = mappedHead := by
  unfold is4In6
  simp [long]

theorem is4In6_length (mapped : is4In6 ip = true) : ip.length = 16 := by
  unfold is4In6 at mapped
  simp only [decide_eq_true_eq] at mapped
  exact mapped.1

theorem is4In6_mapped (short : ip.length = 4) : is4In6 (mappedHead ++ ip) = true := by
  rw [is4In6_iff (by rw [length_append, short]; rfl)]
  exact take_left' rfl

theorem to4_mapped (short : ip.length = 4) : to4 (mappedHead ++ ip) = some ip := by
  rw [to4_of_sixteen (by rw [length_append, short]; rfl), if_pos (is4In6_mapped short)]
  exact congrArg some (drop_left' rfl)

/-- The short form of a mapped address, and its long form again. -/
theorem to4_some {ip4 : IP} (short : to4 ip = some ip4) : ip4.length = 4 ∧ to16 ip = some (mappedHead ++ ip4) := by
  unfold to4 at short
  split_ifs at short with four mapped
  · cases short
    exact ⟨four, to16_of_four four⟩
  · cases short
    have long := is4In6_length mapped
    refine ⟨by rw [length_drop, long], ?_⟩
    rw [to16_of_sixteen long, ← (is4In6_iff long).mp mapped, take_append_drop]

theorem to16_some {p p16 : IP} (long : to16 p = some p16) : p16.length = 16 ∧ (to4 p).isSome = is4In6 p16 := by
  unfold to16 at long
  split_ifs at long with four sixteen
  · cases long
    rw [to4_of_four four, is4In6_mapped four]
    exact ⟨by rw [length_append, four]; rfl, rfl⟩
  · cases long
    rw [to4_of_sixteen sixteen]
    refine ⟨sixteen, ?_⟩
    split_ifs with mapped
    · exact mapped.symm
    · rw [Bool.eq_false_iff.mpr mapped]
      rfl

theorem PeerIP.to16 {p : IP} (peer : PeerIP p) : ∃ p16, Xio.to16 p = some p16 := by
  rcases peer with four | sixteen
  · exact ⟨_, to16_of_four four⟩
  · exact ⟨_, to16_of_sixteen sixteen⟩

/-! ## Matchers -/

private theorem cidrMask_eq (k length : ℕ) : cidrMask k (8 * length) = leadingMask k length := by
  unfold cidrMask
  rw [Nat.mul_div_cancel_left length (by omega)]

/-- Addresses of one width that agree under the mask. -/
theorem masked_iff {b : IP} {length : ℕ} (k : ℕ) (left : a.length = length) (right : b.length = length) :
    masked a (leadingMask k length) = masked b (leadingMask k length) ↔ (bits a).take k = (bits b).take k := by
  subst left
  exact masked_leadingMask_iff k right.symm

/-- A mask of leading ones is not the form of an IPv4 mask. -/
theorem to4_leadingMask (k : ℕ) : to4 (leadingMask k 16) = none := by
  rw [to4_of_sixteen (leadingMask_length k 16), if_neg]
  rw [is4In6_iff (leadingMask_length k 16)]
  intro mapped
  by_cases byte : 8 ≤ k
  · rw [leadingMask, if_pos byte] at mapped
    cases mapped
  · have zeros : leadingMask k 16 = byteMask k :: List.replicate 15 0 := by
      rw [leadingMask, if_neg byte]
      rfl
    rw [zeros] at mapped
    have byte := congrArg (fun bytes : IP => bytes.getD 10 1) mapped
    cases byte

/-- The peer agrees with the address in the long form, whatever their families are. -/
def Near (a : IP) (k : ℕ) (p : IP) : Prop := ∃ p16, to16 p = some p16 ∧ (bits p16).take k = (bits a).take k

theorem inNetwork_four (short : a.length = 4) (k : ℕ) (p : IP) :
    InNetwork a k p ↔ ∃ p4, to4 p = some p4 ∧ (bits p4).take k = (bits a).take k := by
  unfold InNetwork inWidth
  rw [if_pos short, to4_of_four short]
  constructor
  · exact fun inside => inside.2
  · rintro ⟨p4, here, same⟩
    rw [here]
    exact ⟨rfl, p4, rfl, same⟩

theorem inNetwork_sixteen (long : a.length = 16) (k : ℕ) (p : IP) :
    InNetwork a k p ↔ (to4 p).isSome = (to4 a).isSome ∧ Near a k p := by
  unfold InNetwork inWidth Near
  rw [if_neg (by omega)]

section Single

variable (base mask ip : IP)

theorem maskedIPMatcher_single : maskedIPMatcher [base] mask ip =
    match to4 base, to4 mask with
    | some b4, some m4 => match to4 ip with
      | none => false
      | some ip4 => decide (masked ip4 m4 = masked b4 m4)
    | _, _ => match to16 base, to16 mask, to16 ip with
      | some b16, some m16, some ip16 => decide (masked ip16 m16 = masked b16 m16)
      | _, _, _ => false := by
  unfold maskedIPMatcher
  cases found : [base].find? fun cand => (to4 cand).isSome == (to4 ip).isSome with
  | none => rfl
  | some cand =>
    obtain rfl := mem_singleton.mp (mem_of_find?_eq_some found)
    rfl

end Single

/-- An IPv4 network and its mask, in either form. -/
theorem maskedIPMatcher_four {base mask m4 : IP} (short : to4 base = some a)
    (shortMask : to4 mask = some m4) (p : IP) :
    maskedIPMatcher [base] mask p = true ↔ ∃ p4, to4 p = some p4 ∧ masked p4 m4 = masked a m4 := by
  rw [maskedIPMatcher_single, short, shortMask]
  dsimp only
  cases to4 p with
  | none => simp
  | some p4 => simp

/-- An address or a mask that has only the long form. -/
theorem maskedIPMatcher_sixteen {mask m16 : IP} (long : a.length = 16) (longMask : to16 mask = some m16)
    (wide : to4 a = none ∨ to4 mask = none) (p : IP) :
    maskedIPMatcher [a] mask p = true ↔ ∃ p16, to16 p = some p16 ∧ masked p16 m16 = masked a m16 := by
  rw [maskedIPMatcher_single]
  split
  · rename_i b4 m4 base mask
    rcases wide with none | none
    · rw [none] at base
      cases base
    · rw [none] at mask
      cases mask
  · rw [to16_of_sixteen long, longMask]
    cases to16 p with
    | none => simp
    | some p16 => simp

theorem maskedIPMatcher_leading_four {base mask : IP} (short : a.length = 4) (here : to4 base = some a)
    (shortMask : to4 mask = some (leadingMask k 4)) (p : IP) :
    maskedIPMatcher [base] mask p = true ↔ InNetwork a k p := by
  rw [maskedIPMatcher_four here shortMask, inNetwork_four short]
  exact exists_congr fun _ => and_congr_right fun same => masked_iff k (to4_some same).1 short

/-- The long form is compared without a look at the family. -/
theorem maskedIPMatcher_leading_sixteen (long : a.length = 16) (k : ℕ) (p : IP) :
    maskedIPMatcher [a] (leadingMask k 16) p = true ↔ Near a k p := by
  rw [maskedIPMatcher_sixteen long (to16_of_sixteen (leadingMask_length k 16)) (.inr (to4_leadingMask k))]
  exact exists_congr fun _ => and_congr_right fun same => masked_iff k (to16_some same).1 long

private theorem masked_append {b m n : IP} (same : a.length = m.length) :
    masked (a ++ b) (m ++ n) = masked a m ++ masked b n :=
  zipWith_append same

/-- A network compares only addresses of its family. -/
theorem contains_iff {number mask : IP} {n : IPNet} (parts : n.numberAndMask = some (number, mask)) (p : IP) :
    n.contains p = true ↔
      ((to4 p).getD p).length = number.length ∧ masked ((to4 p).getD p) mask = masked number mask := by
  unfold IPNet.contains
  rw [parts]
  simp only [decide_eq_true_eq]
  exact and_congr_right fun _ => eq_comm

private theorem compileCIDRMatcher_iff {a : Addr} (width : a.bytes.length = 4 ∨ a.bytes.length = 16) {p : IP}
    (peer : PeerIP p) : compileCIDRMatcher ⟨a, k⟩ p = true ↔ InNetwork a.bytes k p := by
  obtain ⟨a, zone⟩ := a
  unfold compileCIDRMatcher Addr.bitLen
  dsimp only at width ⊢
  rw [cidrMask_eq]
  have wide : to4 p = none → p.length = 16 := by
    intro none
    rcases peer with four | sixteen
    · rw [to4_of_four four] at none
      cases none
    · exact sixteen
  rcases width with short | long
  · have parts : IPNet.numberAndMask ⟨a, leadingMask k a.length⟩ = some (a, leadingMask k a.length) := by
      unfold IPNet.numberAndMask
      simp [to4_of_four short, short]
    rw [contains_iff parts, inNetwork_four short]
    cases here : to4 p with
    | none =>
      have long := wide here
      simp [short, long]
    | some p4 =>
      have four := (to4_some here).1
      simp [short, four, masked_iff k four short]
  · rw [inNetwork_sixteen long]
    cases mapped : to4 a with
    | some a4 =>
      obtain ⟨four, full⟩ := to4_some mapped
      rw [to16_of_sixteen long] at full
      obtain rfl := Option.some.inj full
      have parts : IPNet.numberAndMask ⟨mappedHead ++ a4, leadingMask k (mappedHead ++ a4).length⟩ =
          some (a4, (leadingMask k 16).drop 12) := by
        unfold IPNet.numberAndMask
        simp [mapped, four, long]
      rw [contains_iff parts]
      cases here : to4 p with
      | none =>
        have sixteen := wide here
        simp [four, sixteen]
      | some p4 =>
        obtain ⟨four', full'⟩ := to4_some here
        have head : mappedHead.length = ((leadingMask k 16).take 12).length := by
          rw [length_take, leadingMask_length]
          rfl
        have agree := masked_iff (b := mappedHead ++ a4) k (to16_some full').1 long
        nth_rewrite 1 2 [← take_append_drop 12 (leadingMask k 16)] at agree
        rw [masked_append head, masked_append head, append_cancel_left_eq] at agree
        simp only [Option.getD_some, four, four', true_and, agree, Option.isSome_some]
        exact ⟨fun same => ⟨_, full', same⟩, fun ⟨p16, same, near⟩ => Option.some.inj (full'.symm.trans same) ▸ near⟩
    | none =>
      have parts : IPNet.numberAndMask ⟨a, leadingMask k a.length⟩ = some (a, leadingMask k a.length) := by
        unfold IPNet.numberAndMask
        simp [mapped, long]
      rw [contains_iff parts]
      cases here : to4 p with
      | some p4 =>
        have four := (to4_some here).1
        simp [long, four]
      | none =>
        have sixteen := wide here
        unfold Near
        simp [long, sixteen, to16_of_sixteen sixteen, masked_iff k sixteen long]

theorem whole_iff {x : IP} (same : x.length = a.length) :
    (bits x).take (8 * a.length) = (bits a).take (8 * a.length) ↔ x = a := by
  rw [take_of_length_le (by rw [bits_length, same]), take_of_length_le (by rw [bits_length])]
  exact ⟨bits_injective, congrArg bits⟩

/-- The network of all bits of the long form. -/
theorem inNetwork_whole (long : a.length = 16) (p : IP) : InNetwork a (8 * a.length) p ↔ to16 p = some a := by
  rw [inNetwork_sixteen long]
  constructor
  · rintro ⟨-, p16, here, same⟩
    obtain rfl := (whole_iff ((to16_some here).1.trans long.symm)).mp same
    exact here
  · intro here
    refine ⟨?_, a, here, rfl⟩
    rw [(to16_some here).2, (to16_some (to16_of_sixteen long)).2]

/-- The exact form is the network of all bits. -/
theorem ipEqual_iff {p : IP} (width : a.length = 4 ∨ a.length = 16) (peer : PeerIP p) :
    ipEqual a p = true ↔ InNetwork a (8 * a.length) p := by
  unfold ipEqual
  rw [decide_eq_true_eq]
  rcases width with short | long
  · rw [inNetwork_four short, to4_of_four short]
    constructor
    · rintro (rfl | ⟨-, here⟩)
      · exact ⟨a, to4_of_four short, rfl⟩
      · exact ⟨a, here.symm, rfl⟩
    · rintro ⟨p4, here, same⟩
      obtain rfl := (whole_iff ((to4_some here).1.trans short.symm)).mp same
      exact .inr ⟨rfl, here.symm⟩
  · rw [inNetwork_whole long]
    constructor
    · rintro (rfl | ⟨mapped, here⟩)
      · exact to16_of_sixteen long
      · obtain ⟨a4, short⟩ := Option.isSome_iff_exists.mp mapped
        rw [(to4_some (here.symm.trans short)).2, ← (to4_some short).2, to16_of_sixteen long]
    · intro here
      rcases peer with four | sixteen
      · rw [to16_of_four four] at here
        obtain rfl := Option.some.inj here
        rw [to4_mapped four, to4_of_four four]
        exact .inr ⟨rfl, rfl⟩
      · rw [to16_of_sixteen sixteen] at here
        exact .inl (Option.some.inj here).symm

/-! ## When the families are told apart -/

/-- The bits of the network leave no room for both families: it is of IPv4, has all bits in which the families
differ, or differs from the mapped addresses in its bits. -/
def Separate (a : IP) (k : ℕ) : Prop := a.length = 4 ∨ 96 ≤ k ∨ (bits mappedHead).take k ≠ (bits a).take k

theorem bits_take (a : IP) (n : ℕ) : (bits a).take (8 * n) = bits (a.take n) := by
  induction a generalizing n with
  | nil => simp [bits]
  | cons x a ih =>
    cases n with
    | zero => rfl
    | succ n =>
      rw [take_succ_cons, bits_cons, bits_cons, ← ih n, take_append, byteBits_length,
        take_of_length_le (by rw [byteBits_length]; omega)]
      rfl

/-- A mapped address starts with the bits of the head. -/
theorem mapped_bits (mapped : is4In6 a = true) (few : k ≤ 96) : (bits a).take k = (bits mappedHead).take k := by
  have head := bits_take a 12
  rw [(is4In6_iff (is4In6_length mapped)).mp mapped] at head
  rw [← head, take_take, min_eq_left few]

/-- Two addresses that agree in the first 96 bits have one family. -/
theorem family_of_bits {b : IP} (long : a.length = 16) (long' : b.length = 16) (many : 96 ≤ k)
    (same : (bits a).take k = (bits b).take k) : is4In6 a = is4In6 b := by
  have heads : a.take 12 = b.take 12 := by
    apply bits_injective
    rw [← bits_take, ← bits_take]
    show (bits a).take 96 = (bits b).take 96
    rw [← min_eq_left many, ← take_take, ← take_take, same]
  rw [Bool.eq_iff_iff, is4In6_iff long, is4In6_iff long', heads]

private theorem near_family {p : IP} (long : a.length = 16) (separate : Separate a k) (near : Near a k p) :
    (to4 p).isSome = (to4 a).isSome := by
  obtain ⟨p16, here, same⟩ := near
  obtain ⟨long', family⟩ := to16_some here
  rw [family, (to16_some (to16_of_sixteen long)).2]
  rcases separate with short | many | differ
  · omega
  · exact family_of_bits long' long many same
  · by_cases many : 96 ≤ k
    · exact family_of_bits long' long many same
    · have few : k ≤ 96 := by omega
      have fewer : ∀ {x : IP}, (bits x).take k = (bits a).take k → is4In6 x = false := by
        intro x agree
        rw [Bool.eq_false_iff]
        intro mapped
        exact differ ((mapped_bits mapped few).symm.trans agree)
      rw [fewer same, fewer rfl]

/-- Where the families are told apart, the long form is compared rightly. -/
theorem near_iff (long : a.length = 16) (separate : Separate a k) (p : IP) : Near a k p ↔ InNetwork a k p := by
  rw [inNetwork_sixteen long]
  exact ⟨fun near => ⟨near_family long separate near, near⟩, fun inside => inside.2⟩

/-- A mapped address with one bit of its head changed. -/
def unmapped : IP := [0, 0, 0, 0, 0, 0, 0, 0, 0, 0, 0xff, 0xfe, 0, 0, 0, 0]

/-- Where they are not, some peer of the other family is near. -/
theorem exists_near (mixed : ¬Separate a k) : ∃ p, PeerIP p ∧ Near a k p ∧ (to4 p).isSome ≠ (to4 a).isSome := by
  unfold Separate at mixed
  push Not at mixed
  obtain ⟨-, few, same⟩ := mixed
  cases mapped : to4 a with
  | none =>
    refine ⟨mappedHead ++ [0, 0, 0, 0], .inr rfl, ⟨_, to16_of_sixteen rfl, ?_⟩, ?_⟩
    · rw [← same]
      exact mapped_bits (is4In6_mapped rfl) (by omega)
    · rw [to4_mapped rfl]
      nofun
  | some a4 =>
    refine ⟨unmapped, .inr rfl, ⟨_, to16_of_sixteen rfl, ?_⟩, ?_⟩
    · rw [← same, ← min_eq_left (show k ≤ 95 by omega), ← take_take, ← take_take]
      rfl
    · nofun

/-! ## Reading the spellings -/

def specChar (c : Char) : Bool := literalChar c || c = '[' || c = ']'

theorem not_isSpace {c : Char} (plain : specChar c = true) : isSpace c = false := by
  rw [Bool.eq_false_iff]
  intro space
  unfold isSpace at space
  simp only [contains_eq_mem, mem_cons, not_mem_nil, or_false, decide_eq_true_eq] at space
  rcases space with rfl | rfl | rfl | rfl | rfl | rfl <;> cases plain

theorem not_mem_bracket {c : Char} {brackets : Bool} (absent : c ∉ s) (other : c ≠ '[' ∧ c ≠ ']') :
    c ∉ bracket brackets s := by
  intro member
  rcases mem_bracket member with inside | ⟨-, same | same⟩
  · exact absent inside
  · exact other.1 same
  · exact other.2 same

theorem specChar_bracket {a : Addr} (literal : Literal s a) (brackets : Bool) :
    ∀ c ∈ bracket brackets s, specChar c = true := by
  intro c member
  unfold specChar
  rcases mem_bracket member with inside | ⟨-, rfl | rfl⟩
  · rw [literal.chars c inside]
    rfl
  · rfl
  · rfl

private theorem containsAny_false {chars : Text} (absent : ∀ c ∈ chars, c ∉ s) : containsAny s chars = false := by
  unfold containsAny
  rw [any_eq_false]
  intro c member
  rw [contains_eq_mem, decide_eq_true_eq]
  exact fun listed => absent c listed member

/-- A text of neither a prefix nor a hexadecimal form. -/
theorem parseIPRange_plain (filled : spec ≠ []) (plain : ∀ c ∈ spec, specChar c = true) :
    parseIPRange spec = match cutBracketed spec with
      | some (addr, mask) => parseAddrMask addr mask
      | none => match cutDotted spec with
        | some (addr, mask) => parseAddrMask addr mask
        | none => .ok (.exact (targetFromText spec)) := by
  have absent : ∀ {c : Char}, specChar c = false → c ∉ spec := by
    intro c other member
    rw [plain c member] at other
    cases other
  unfold parseIPRange
  rw [trimSpace_visible fun c member => not_isSpace (plain c member)]
  dsimp only
  rw [if_neg filled, if_neg (by simpa using absent (c := '/') rfl), containsAny_false]
  · rfl
  · intro c member
    rcases mem_pair.mp member with rfl | rfl
    · exact absent rfl
    · exact absent rfl

theorem targetFromText_bracket {a : Addr} (literal : Literal s a) (brackets : Bool) :
    (targetFromText (bracket brackets s)).literal = some a := by
  unfold targetFromText
  rw [stripBrackets_bracket (literal.absent rfl)]
  exact literal.parsed

theorem cutBracketed_open (first : spec.head? ≠ some '[') : cutBracketed spec = none := if_pos first

theorem cut_closed {s : Text} (free : ']' ∉ s) (rest : Text) :
    cut ('[' :: (s ++ ']' :: rest)) ']' = ('[' :: s, some rest) :=
  cut_append (show ']' ∉ '[' :: s by simpa using free)

private theorem cutBracketed_mask {s : Text} (free : ']' ∉ s) (mask : Text) :
    cutBracketed (bracket true s ++ ':' :: mask) = some (bracket true s, mask) := by
  have parts := cut_closed free (':' :: mask)
  have text : bracket true s ++ ':' :: mask = '[' :: (s ++ ']' :: ':' :: mask) := by simp [bracket]
  unfold cutBracketed
  rw [text, if_neg (by simp), parts]
  rfl

theorem head_literal {a : Addr} (literal : Literal s a) (rest : Text) : (s ++ rest).head? ≠ some '[' := by
  obtain ⟨c, s', rfl⟩ := exists_cons_of_ne_nil literal.nonempty
  intro first
  cases first
  exact literal.absent rfl mem_cons_self

private theorem cutDotted_undotted (free : '.' ∉ spec) : cutDotted spec = none := by
  unfold cutDotted
  by_cases colon : ':' ∈ spec
  · obtain ⟨before, after, rfl, last⟩ := exists_last colon
    rw [cutLast_append last, Option.filter_some, if_neg]
    have none : after.count '.' = 0 := count_eq_zero.mpr fun member => free (by simp [member])
    simp [none]
  · rw [cutLast_absent colon]
    rfl

private theorem cutDotted_uncut (free : ':' ∉ spec) : cutDotted spec = none := by
  unfold cutDotted
  rw [cutLast_absent free]
  rfl

theorem cutDotted_append {before after : Text} (filled : before ≠ []) (last : ':' ∉ after)
    (dots : after.count '.' = 3) :
    cutDotted (before ++ ':' :: after) = some (before, after) := by
  unfold cutDotted
  rw [cutLast_append last, Option.filter_some, if_pos]
  simp [filled, dots]

theorem bracket_nonempty (filled : s ≠ []) (brackets : Bool) : bracket brackets s ≠ [] := by
  unfold bracket
  split_ifs
  · exact cons_ne_nil _ _
  · exact filled

theorem cutBracketed_bracket {a : Addr} (literal : Literal s a) (brackets : Bool) :
    cutBracketed (bracket brackets s) = none := by
  cases brackets with
  | true =>
    have parts := cut_closed (literal.absent (c := ']') rfl) []
    unfold cutBracketed
    rw [if_neg (by simp [bracket])]
    rw [show bracket true s = '[' :: (s ++ [']']) from rfl, parts]
  | false => exact cutBracketed_open (append_nil s ▸ head_literal literal [])

/-- The exact form, unless a dotted part is taken for a mask. -/
private theorem parse_exact {a : Addr} (literal : Literal s a) (undotted : a.bytes.length = 16 → '.' ∉ s)
    (brackets : Bool) :
    parseIPRange (bracket brackets s) = .ok (.exact (targetFromText (bracket brackets s))) := by
  have dotless : cutDotted (bracket brackets s) = none := by
    rcases literal.length_eq with short | long
    · exact cutDotted_uncut (not_mem_bracket (quad_text (literal.four short)).2.1 (by decide))
    · exact cutDotted_undotted (not_mem_bracket (undotted long) (by decide))
  rw [parseIPRange_plain (bracket_nonempty literal.nonempty brackets) (specChar_bracket literal brackets),
    cutBracketed_bracket literal brackets]
  dsimp only
  rw [dotless]

/-- An address in brackets, or one of IPv4, with a mask. -/
private theorem parse_addrMask {m : Text} {a mask : Addr} (literal : Literal s a) (literalMask : Literal m mask)
    (b b' : Bool) (width : mask.bytes.length = a.bytes.length) (closed : a.bytes.length = 16 → b = true) :
    parseIPRange (bracket b s ++ ':' :: bracket b' m) = parseAddrMask (bracket b s) (bracket b' m) := by
  have plain : ∀ c ∈ bracket b s ++ ':' :: bracket b' m, specChar c = true := forall_mem_append.mpr
    ⟨specChar_bracket literal b, forall_mem_cons.mpr ⟨rfl, specChar_bracket literalMask b'⟩⟩
  rw [parseIPRange_plain (by simp) plain]
  cases b with
  | true =>
    rw [cutBracketed_mask (literal.absent rfl)]
  | false =>
    have short : a.bytes.length = 4 := by
      rcases literal.length_eq with short | long
      · exact short
      · cases closed long
    obtain ⟨-, colon, dots, -⟩ := quad_text (literalMask.four (width.trans short))
    have last : ':' ∉ bracket b' m := not_mem_bracket colon (by decide)
    have three : (bracket b' m).count '.' = 3 := by
      unfold bracket
      split_ifs
      · simpa using dots
      · exact dots
    have opened : cutBracketed (bracket false s ++ ':' :: bracket b' m) = none :=
      cutBracketed_open (head_literal literal _)
    rw [opened]
    dsimp only
    rw [cutDotted_append (bracket_nonempty literal.nonempty false) last three]

theorem parseAddrMask_literal {m : Text} {mask : Addr} (literal : Literal m mask) (addr : Text) (brackets : Bool) :
    ∃ m16, to16 mask.bytes = some m16 ∧
      parseAddrMask addr (bracket brackets m) = .ok (.addrMask (targetFromText addr) ((to4 m16).getD m16)) := by
  obtain ⟨m16, long⟩ := PeerIP.to16 literal.length_eq
  refine ⟨m16, long, ?_⟩
  unfold parseAddrMask
  rw [stripBrackets_bracket (literal.absent rfl), literal.parseIP_eq, long]

/-- The lengths of prefixes are written without leading zeros. -/
private theorem digits_spec : ∀ k < 129, (Nat.toDigits 10 k).all isDigit = true ∧ decimal (Nat.toDigits 10 k) = some k ∧
    ¬(1 < (Nat.toDigits 10 k).length ∧ (Nat.toDigits 10 k).head? = some '0') := by
  decide +kernel

theorem hexChar {c : Char} (hex : isHex c = true) : isSpace c = false ∧ c ≠ '/' ∧ c ≠ ':' ∧ c ≠ 'x' := by
  have plain : specChar c = true := by
    unfold specChar literalChar
    rw [hex]
    rfl
  refine ⟨not_isSpace plain, ?_, ?_, ?_⟩ <;> rintro rfl <;> cases hex

private theorem parse_cidr {a : Addr} (literal : Literal s a) (fits : k ≤ 8 * a.bytes.length) (b : Bool) :
    parseIPRange (bracket b s ++ '/' :: Nat.toDigits 10 k) = .ok (.cidr ⟨a, k⟩) := by
  have small : k < 129 := by
    rcases literal.length_eq with short | long <;> omega
  obtain ⟨digits, value, unpadded⟩ := digits_spec k small
  have hex : ∀ c ∈ Nat.toDigits 10 k, isHex c = true :=
    fun c member => isHex_of_isDigit (all_eq_true.mp digits c member)
  have last : '/' ∉ Nat.toDigits 10 k := fun member => (hexChar (hex _ member)).2.1 rfl
  have visible : ∀ c ∈ bracket b s ++ '/' :: Nat.toDigits 10 k, isSpace c = false := forall_mem_append.mpr
    ⟨fun c left => not_isSpace (specChar_bracket literal b c left),
      forall_mem_cons.mpr ⟨rfl, fun c right => (hexChar (hex c right)).1⟩⟩
  have parsed : parsePrefix (s ++ '/' :: Nat.toDigits 10 k) = some ⟨a, k⟩ := by
    unfold parsePrefix
    rw [cutLast_append last]
    simp only [Option.bind_eq_bind, Option.bind_some, literal.parsed, value]
    rw [if_neg (by simp [literal.unscoped]), if_neg unpadded, if_neg (by unfold Addr.bitLen; omega)]
    rfl
  unfold parseIPRange
  rw [trimSpace_visible visible]
  dsimp only
  rw [if_neg (by simp), if_pos (by simp)]
  unfold parseCIDRRange
  rw [cutLast_append last]
  dsimp only
  rw [if_neg (bracket_nonempty literal.nonempty b), stripBrackets_bracket (literal.absent rfl), parsed]

/-! ### The hexadecimal form -/

theorem decodeHex_chars {text : Text} {bytes : List UInt8} (decoded : decodeHex text = some bytes) :
    ∀ c ∈ text, isHex c = true := by
  fun_induction decodeHex text generalizing bytes with
  | case1 => exact fun c member => absurd member not_mem_nil
  | case2 => cases decoded
  | case3 high low rest ih =>
    simp only [Option.bind_eq_bind, Option.bind_eq_some_iff] at decoded
    obtain ⟨h, left, l, right, bytes', tail, -⟩ := decoded
    refine forall_mem_cons.mpr ⟨?_, forall_mem_cons.mpr ⟨?_, ih tail⟩⟩
    · rw [isHex, left]
      rfl
    · rw [isHex, right]
      rfl

private theorem parseSocatData_hex {text : Text} {bytes : List UInt8} (decoded : decodeHex text = some bytes) :
    parseSocatData ('x' :: text) = some bytes := by
  have chars := decodeHex_chars decoded
  have shape : socketText ('x' :: text) = 'x' :: text := by
    unfold socketText
    rw [trimSpace_visible]
    · rfl
    · exact forall_mem_cons.mpr ⟨rfl, fun c member => (hexChar (chars c member)).1⟩
  have single : text.splitOn 'x' = [text] := by
    apply splitOnP_eq_singleton
    intro c member
    exact beq_false_of_ne (hexChar (chars c member)).2.2.2
  rw [parseSocatData]
  split <;> rename_i same <;> rw [shape] at same
  · cases same
  · cases same
  · cases same
  · cases same
    rw [single, mapM_cons, decoded]
    simp
  · cases same
  · rename_i unhex
    exact absurd shape (unhex text)

/-- The first `:x` stands behind the network. -/
private theorem cutColonX_append {net mask before : Text} (colon : ':' ∉ net) :
    cutColonX before (net ++ ':' :: 'x' :: mask) = some (before ++ net, 'x' :: mask) := by
  induction net generalizing before with
  | nil =>
    show cutColonX before (':' :: 'x' :: mask) = _
    unfold cutColonX
    rw [if_pos ⟨rfl, .inl rfl⟩, append_nil]
  | cons c net ih =>
    have other : c ≠ ':' := by
      rintro rfl
      exact colon mem_cons_self
    show cutColonX before (c :: (net ++ ':' :: 'x' :: mask)) = _
    unfold cutColonX
    rw [if_neg (by simp [other]), ih fun member => colon (mem_cons_of_mem _ member)]
    simp

theorem parse_hex {net mask : Text} {netBytes maskBytes : List UInt8} (decoded : decodeHex net = some netBytes)
    (decodedMask : decodeHex mask = some maskBytes) (long : 6 ≤ netBytes.length) (longMask : 6 ≤ maskBytes.length)
    (wide : 22 ≤ netBytes.length → 22 ≤ maskBytes.length) :
    parseIPRange ('x' :: (net ++ ':' :: 'x' :: mask)) = .ok (.hex netBytes maskBytes) := by
  have chars := decodeHex_chars decoded
  have charsMask := decodeHex_chars decodedMask
  have visible : ∀ c ∈ 'x' :: (net ++ ':' :: 'x' :: mask), isSpace c = false ∧ c ≠ '/' := by
    have hex {c : Char} (digit : isHex c = true) : isSpace c = false ∧ c ≠ '/' :=
      ⟨(hexChar digit).1, (hexChar digit).2.1⟩
    simp only [forall_mem_cons, forall_mem_append]
    exact ⟨by decide, fun c inside => hex (chars c inside), by decide, by decide,
      fun c inside => hex (charsMask c inside)⟩
  have parts : splitHexSockRange ('x' :: (net ++ ':' :: 'x' :: mask)) = some ('x' :: net, 'x' :: mask) := by
    have colon : ':' ∉ 'x' :: net :=
      not_mem_cons_of_ne_of_not_mem (by decide) fun inside => (hexChar (chars _ inside)).2.2.1 rfl
    unfold splitHexSockRange
    rw [← cons_append, cutColonX_append colon]
    rfl
  have handled : parseHexSockRange ('x' :: (net ++ ':' :: 'x' :: mask)) = some (.ok (.hex netBytes maskBytes)) := by
    unfold parseHexSockRange
    rw [parts]
    dsimp only
    rw [parseSocatData_hex decoded, parseSocatData_hex decodedMask, if_neg (by simp [containsAny])]
    dsimp only
    rw [if_neg (by omega), if_neg (by omega)]
  unfold parseIPRange
  rw [trimSpace_visible fun c member => (visible c member).1]
  dsimp only
  rw [if_neg (cons_ne_nil _ _), if_neg, if_pos (by simp [containsAny]), handled]
  rw [contains_eq_mem, decide_eq_true_eq]
  exact fun member => (visible _ member).2 rfl

/-! ## The spellings of one network -/

/-- The length of what stands before the address in a socket address: the port, and for IPv6 the flow. -/
def sockaddrHead (a : Addr) : ℕ := if a.bytes.length = 4 then 2 else 6

/-- The spellings of the first `k` bits of an address that is written in this way. An address of IPv6 stands in
brackets before a mask; elsewhere brackets may be there or not. -/
inductive Spelling (s : Text) (a : Addr) (k : ℕ) (brackets : Bool) : Text → Prop
  | cidr (b : Bool) : Spelling s a k brackets (bracket b s ++ '/' :: Nat.toDigits 10 k)
  | addrMask {m : Text} {mask : Addr} (b b' : Bool) : Literal m mask → mask.bytes = leadingMask k a.bytes.length →
      (a.bytes.length = 16 → b = true) → Spelling s a k brackets (bracket b s ++ ':' :: bracket b' m)
  | hex {net mask : Text} {head head' : List UInt8} : decodeHex net = some (head ++ a.bytes) →
      decodeHex mask = some (head' ++ leadingMask k a.bytes.length) → head.length = sockaddrHead a →
      head'.length = sockaddrHead a → Spelling s a k brackets ('x' :: (net ++ ':' :: 'x' :: mask))
  | exact : k = 8 * a.bytes.length → Spelling s a k brackets (bracket brackets s)

/-- The matcher of the text accepts the peers of the network, and no others. -/
def Matches (resolver : Resolver) (spec : Text) (a : Addr) (k : ℕ) : Prop :=
  ∃ accepts, rangeMatcher resolver spec = .ok accepts ∧ ∀ p, PeerIP p → (accepts p = true ↔ InNetwork a.bytes k p)

section Spellings

variable {resolver : Resolver} {s : Text} {a : Addr} {k : ℕ}

theorem matches_of_parse {range : IPRange} {accepts : IP → Bool} (parsed : parseIPRange spec = .ok range)
    (compiled : compileIPRange resolver range = .ok accepts)
    (right : ∀ p, PeerIP p → (accepts p = true ↔ InNetwork a.bytes k p)) : Matches resolver spec a k := by
  refine ⟨accepts, ?_, right⟩
  unfold rangeMatcher
  rw [parsed]
  exact compiled

theorem cidr_matches (literal : Literal s a) (fits : k ≤ 8 * a.bytes.length) (b : Bool) :
    Matches resolver (bracket b s ++ '/' :: Nat.toDigits 10 k) a k :=
  matches_of_parse (parse_cidr literal fits b) rfl fun _ peer => compileCIDRMatcher_iff literal.length_eq peer

theorem exact_matches (literal : Literal s a) (undotted : a.bytes.length = 16 → '.' ∉ s) (brackets : Bool) :
    Matches resolver (bracket brackets s) a (8 * a.bytes.length) := by
  refine matches_of_parse (parse_exact literal undotted brackets) ?_ fun _ peer => ipEqual_iff literal.length_eq peer
  unfold compileIPRange
  dsimp only
  rw [targetFromText_bracket literal]

private theorem addrMask_matches {m : Text} {mask : Addr} (literal : Literal s a) (literalMask : Literal m mask)
    (ones : mask.bytes = leadingMask k a.bytes.length) (b b' : Bool) (closed : a.bytes.length = 16 → b = true)
    (separate : Separate a.bytes k) : Matches resolver (bracket b s ++ ':' :: bracket b' m) a k := by
  have width : mask.bytes.length = a.bytes.length := by rw [ones, leadingMask_length]
  obtain ⟨m16, long, parsed⟩ := parseAddrMask_literal literalMask (bracket b s) b'
  rw [← parse_addrMask literal literalMask b b' width closed] at parsed
  have compiled : compileIPRange resolver (.addrMask (targetFromText (bracket b s)) ((to4 m16).getD m16)) =
      .ok (maskedIPMatcher [a.bytes] ((to4 m16).getD m16)) := by
    unfold compileIPRange compileAddrMask
    dsimp only
    rw [targetFromText_bracket literal]
  apply matches_of_parse parsed compiled
  intro p peer
  rw [ones] at long
  rcases literal.length_eq with short | sixteen
  · rw [short, to16_of_four (leadingMask_length k 4)] at long
    obtain rfl := Option.some.inj long
    rw [to4_mapped (leadingMask_length k 4)]
    exact maskedIPMatcher_leading_four short (to4_of_four short) (to4_of_four (leadingMask_length k 4)) p
  · rw [sixteen, to16_of_sixteen (leadingMask_length k 16)] at long
    obtain rfl := Option.some.inj long
    rw [to4_leadingMask]
    exact (maskedIPMatcher_leading_sixteen sixteen k p).trans (near_iff sixteen separate p)

/-- The matcher of the hexadecimal form of an IPv6 network. -/
theorem rangeMatcher_hex {net mask : Text} {head head' : List UInt8} (long : a.bytes.length = 16)
    (decoded : decodeHex net = some (head ++ a.bytes)) (decodedMask : decodeHex mask = some (head' ++ leadingMask k 16))
    (six : head.length = 6) (six' : head'.length = 6) :
    rangeMatcher resolver ('x' :: (net ++ ':' :: 'x' :: mask)) =
      .ok (maskedIPMatcher [a.bytes] (leadingMask k 16)) := by
  have total : (head ++ a.bytes).length = 22 := by rw [length_append, six, long]
  have total' : (head' ++ leadingMask k 16).length = 22 := by rw [length_append, six', leadingMask_length]
  unfold rangeMatcher
  rw [parse_hex decoded decodedMask (by omega) (by omega) (by omega)]
  show compileHexSockRange (head ++ a.bytes) (head' ++ leadingMask k 16) = _
  unfold compileHexSockRange
  rw [if_pos (by omega), if_neg (by omega), drop_left' six, drop_left' six', take_of_length_le (by omega),
    take_of_length_le (by rw [leadingMask_length])]

private theorem hex_matches {net mask : Text} {head head' : List UInt8} (literal : Literal s a)
    (decoded : decodeHex net = some (head ++ a.bytes))
    (decodedMask : decodeHex mask = some (head' ++ leadingMask k a.bytes.length)) (first : head.length = sockaddrHead a)
    (first' : head'.length = sockaddrHead a) (separate : Separate a.bytes k) :
    Matches resolver ('x' :: (net ++ ':' :: 'x' :: mask)) a k := by
  rcases literal.length_eq with short | long
  · have two : sockaddrHead a = 2 := if_pos short
    rw [short] at decodedMask
    have total : (head ++ a.bytes).length = 6 := by rw [length_append, first, two, short]
    have total' : (head' ++ leadingMask k 4).length = 6 := by rw [length_append, first', two, leadingMask_length]
    have compiled : compileIPRange resolver (.hex (head ++ a.bytes) (head' ++ leadingMask k 4)) =
        .ok (maskedIPMatcher [mappedHead ++ a.bytes] (mappedHead ++ leadingMask k 4)) := by
      show compileHexSockRange _ _ = _
      unfold compileHexSockRange
      rw [if_neg (by omega), drop_left' (first.trans two), drop_left' (first'.trans two),
        take_of_length_le (by omega), take_of_length_le (by rw [leadingMask_length])]
    apply matches_of_parse (parse_hex decoded decodedMask (by omega) (by omega) (by omega)) compiled
    intro p _
    exact maskedIPMatcher_leading_four short (to4_mapped short) (to4_mapped (leadingMask_length k 4)) p
  · have six : sockaddrHead a = 6 := if_neg (by omega)
    rw [long] at decodedMask
    refine ⟨_, rangeMatcher_hex long decoded decodedMask (first.trans six) (first'.trans six), fun p _ => ?_⟩
    exact (maskedIPMatcher_leading_sixteen long k p).trans (near_iff long separate p)

/-! ### Where they disagree -/

def encodeHex (bytes : List UInt8) : Text :=
  bytes.flatMap fun b => [Nat.digitChar (b.toNat / 16), Nat.digitChar (b.toNat % 16)]

theorem hexDigit_digitChar : ∀ n < 16, hexDigit (Nat.digitChar n) = some n := by decide

theorem decodeHex_encodeHex (bytes : List UInt8) : decodeHex (encodeHex bytes) = some bytes := by
  induction bytes with
  | nil => rfl
  | cons b bytes ih =>
    have bound := b.toNat_lt
    have byte : UInt8.ofNat (b.toNat / 16 * 16 + b.toNat % 16) = b := by
      rw [Nat.div_add_mod', UInt8.ofNat_toNat]
    show decodeHex (Nat.digitChar (b.toNat / 16) :: Nat.digitChar (b.toNat % 16) :: encodeHex bytes) = _
    unfold decodeHex
    rw [hexDigit_digitChar _ (by omega), hexDigit_digitChar _ (by omega), ih]
    exact congrArg (fun c => some (c :: bytes)) byte

/-- The hexadecimal form accepts a peer of the other family. -/
private theorem hex_mixes (long : a.bytes.length = 16) (mixed : ¬Separate a.bytes k) (brackets : Bool) :
    ∃ spec, Spelling s a k brackets spec ∧ ¬Matches resolver spec a k := by
  have six : sockaddrHead a = 6 := if_neg (by omega)
  have decoded := decodeHex_encodeHex (List.replicate 6 0 ++ a.bytes)
  have decodedMask := decodeHex_encodeHex (List.replicate 6 0 ++ leadingMask k 16)
  have spelled : Spelling s a k brackets ('x' :: (encodeHex (List.replicate 6 0 ++ a.bytes) ++
      ':' :: 'x' :: encodeHex (List.replicate 6 0 ++ leadingMask k 16))) := by
    apply Spelling.hex decoded
    · rw [long]
      exact decodedMask
    · rw [six]
      rfl
    · rw [six]
      rfl
  refine ⟨_, spelled, ?_⟩
  rintro ⟨accepts, compiled, right⟩
  rw [rangeMatcher_hex long decoded decodedMask rfl rfl] at compiled
  cases compiled
  obtain ⟨p, peer, near, family⟩ := exists_near mixed
  have inside := (right p peer).mp ((maskedIPMatcher_leading_sixteen long k p).mpr near)
  exact family inside.1

/-- An address under a mask of four fields is not a single other address. -/
private theorem addrMask_not_single {base quad : IP} {a : IP} (long : base.length = 16) (four : quad.length = 4)
    (other : base.take 12 = mappedHead → a ≠ base) :
    ¬∀ p, PeerIP p → (maskedIPMatcher [base] quad p = true ↔ to16 p = some a) := by
  intro right
  cases short : to4 base with
  | some b4 =>
    -- the short form of the base itself
    obtain ⟨shortLength, full⟩ := to4_some short
    rw [to16_of_sixteen long] at full
    have accepted := (right b4 (.inl shortLength)).mp
      ((maskedIPMatcher_four short (to4_of_four four) b4).mpr ⟨b4, to4_of_four shortLength, rfl⟩)
    rw [to16_of_four shortLength, ← full] at accepted
    have head : base.take 12 = mappedHead := by
      rw [Option.some.inj full]
      exact take_left' rfl
    exact other head (Option.some.inj accepted).symm
  | none =>
    -- the mask leaves the first byte free
    obtain ⟨first, rest, rfl⟩ := exists_cons_of_length_eq_add_one long
    have accepted : ∀ x : UInt8, x :: rest = a := by
      intro x
      have sixteen : (x :: rest).length = 16 := long
      apply Option.some.inj
      rw [← to16_of_sixteen sixteen]
      apply (right (x :: rest) (.inr sixteen)).mp
      rw [maskedIPMatcher_sixteen long (to16_of_four four) (.inl short)]
      refine ⟨_, to16_of_sixteen sixteen, ?_⟩
      show (x &&& 0) :: masked rest _ = (first &&& 0) :: masked rest _
      rw [UInt8.and_zero, UInt8.and_zero]
    cases (accepted 0).trans (accepted 1).symm

/-- A dotted part is taken for a mask. -/
private theorem exact_misread (literal : Literal s a) (long : a.bytes.length = 16) (dot : '.' ∈ s) (brackets : Bool) :
    ¬Matches resolver (bracket brackets s) a (8 * a.bytes.length) := by
  obtain ⟨t, q, quad, rfl, parsed, colon, free⟩ := (literal.sixteen long).dotted dot
  obtain ⟨-, last, dots, four⟩ := quad_text parsed
  have filled : t ≠ [] := ne_nil_of_mem colon
  rintro ⟨accepts, compiled, right⟩
  unfold rangeMatcher at compiled
  rw [parseIPRange_plain (bracket_nonempty literal.nonempty brackets) (specChar_bracket literal brackets),
    cutBracketed_bracket literal brackets] at compiled
  dsimp only at compiled
  have mask : Literal q ⟨quad, []⟩ := ⟨parseAddr_of_quad parsed, rfl⟩
  cases brackets with
  | true =>
    -- the closing bracket becomes part of the mask
    have text : bracket true (t ++ ':' :: q) = ('[' :: t) ++ ':' :: (q ++ [']']) := by simp [bracket]
    have unreadable : parseIP (stripBrackets (q ++ [']'])) = none := by
      have bare : stripBrackets (q ++ [']']) = q ++ [']'] := by
        unfold stripBrackets
        rw [if_neg]
        exact fun closed => head_literal mask _ closed.2.1
      rw [bare]
      cases found : parseAddr (q ++ [']']) with
      | none =>
        unfold parseIP
        rw [found]
        rfl
      | some addr =>
        unfold parseIP
        rw [found, Option.bind_some, if_neg]
        intro unscoped
        exact (Literal.mk found unscoped).absent (c := ']') rfl (by simp)
    rw [text, cutDotted_append (cons_ne_nil _ _) (by simpa using last) (by simpa using dots)] at compiled
    dsimp only at compiled
    unfold parseAddrMask at compiled
    rw [unreadable] at compiled
    cases compiled
  | false =>
    obtain ⟨m16, sixteen, read⟩ := parseAddrMask_literal mask t false
    rw [to16_of_four four] at sixteen
    obtain rfl := Option.some.inj sixteen
    have absent : ∀ {c : Char}, literalChar c = false → c ∉ t := by
      intro c other member
      exact literal.absent other (mem_append_left _ member)
    have bare : stripBrackets t = t := stripBrackets_bracket (absent rfl) false
    rw [show bracket false (t ++ ':' :: q) = t ++ ':' :: q from rfl, cutDotted_append filled last dots] at compiled
    dsimp only at compiled
    rw [show q = bracket false q from rfl, read, to4_mapped four] at compiled
    change compileAddrMask resolver (targetFromText t) quad = .ok accepts at compiled
    unfold compileAddrMask targetFromText at compiled
    dsimp only at compiled
    rw [bare] at compiled
    cases found : parseAddr t with
    | none =>
      rw [found] at compiled
      dsimp only at compiled
      rw [resolver.refuses t colon found] at compiled
      cases compiled
    | some base =>
      rw [found] at compiled
      cases compiled
      obtain ⟨only, -⟩ := parseAddr_of_colon found free (absent rfl)
      apply addrMask_not_single only.length_eq four
        ((literal.sixteen long).append_quad_ne only parsed free)
      intro p peer
      rw [right p peer, inNetwork_whole long]

end Spellings

/-! ## The condition -/

/-- The families are told apart, and the whole of an IPv6 address is written without a dotted part. -/
def Told (s : Text) (a : Addr) (k : ℕ) : Prop :=
  Separate a.bytes k ∧ (a.bytes.length = 16 → k = 128 → '.' ∉ s)

/-- The spellings of a network all match its peers, and no others, just if its bits tell the families apart and
a whole IPv6 address has no dotted part. -/
theorem spellings_agree_iff (resolver : Resolver) {s : Text} {a : Addr} (literal : Literal s a) {k : ℕ}
    (fits : k ≤ 8 * a.bytes.length) (brackets : Bool) :
    (∀ spec, Spelling s a k brackets spec → Matches resolver spec a k) ↔ Told s a k := by
  constructor
  · intro right
    constructor
    · by_contra mixed
      have long : a.bytes.length = 16 := by
        rcases literal.length_eq with short | long
        · exact absurd (.inl short) mixed
        · exact long
      obtain ⟨spec, spelled, wrong⟩ : ∃ spec, Spelling s a k brackets spec ∧ ¬Matches resolver spec a k :=
        hex_mixes long mixed brackets
      exact wrong (right spec spelled)
    · intro long whole dot
      have all : k = 8 * a.bytes.length := by omega
      have exact' := right _ (.exact all)
      rw [all] at exact'
      exact exact_misread literal long dot brackets exact'
  · rintro ⟨separate, undotted⟩ spec spelled
    cases spelled with
    | cidr b => exact cidr_matches literal fits b
    | addrMask b b' literalMask ones closed => exact addrMask_matches literal literalMask ones b b' closed separate
    | hex decoded decodedMask first first' => exact hex_matches literal decoded decodedMask first first' separate
    | exact all =>
      rw [all]
      exact exact_matches literal (fun long => undotted long (by omega)) brackets

/-- A resolver without hosts. -/
def noHosts : Resolver := ⟨fun _ => none, fun _ _ _ => rfl⟩

theorem documentation_network_agrees :
    Literal "2001:db8::1".toList ⟨[0x20, 1, 0x0d, 0xb8, 0, 0, 0, 0, 0, 0, 0, 0, 0, 0, 0, 1], []⟩ ∧
      ∀ spec, Spelling "2001:db8::1".toList ⟨[0x20, 1, 0x0d, 0xb8, 0, 0, 0, 0, 0, 0, 0, 0, 0, 0, 0, 1], []⟩
        32 true spec →
        Matches noHosts spec ⟨[0x20, 1, 0x0d, 0xb8, 0, 0, 0, 0, 0, 0, 0, 0, 0, 0, 0, 1], []⟩ 32 := by
  have literal : Literal "2001:db8::1".toList ⟨[0x20, 1, 0x0d, 0xb8, 0, 0, 0, 0, 0, 0, 0, 0, 0, 0, 0, 1], []⟩ :=
    ⟨by decide, rfl⟩
  refine ⟨literal, (spellings_agree_iff noHosts literal (by decide) true).mpr ⟨.inr (.inr (by decide)), ?_⟩⟩
  intro _ whole
  cases whole

/-- Two spellings of all IPv6 addresses: under the mask an IPv4 peer is one of them. And the text of a mapped address
is read as another address with a mask. -/
theorem spellings_disagree :
    Spelling "::".toList ⟨List.replicate 16 0, []⟩ 0 false "[::]:[::]".toList ∧
    Spelling "::".toList ⟨List.replicate 16 0, []⟩ 0 false "::/0".toList ∧
    (∃ accepts, rangeMatcher noHosts "[::]:[::]".toList = .ok accepts ∧ accepts [127, 0, 0, 1] = true) ∧
    (∃ accepts, rangeMatcher noHosts "::/0".toList = .ok accepts ∧ accepts [127, 0, 0, 1] = false) ∧
    ∃ accepts, rangeMatcher noHosts "::ffff:192.0.2.1".toList = .ok accepts ∧ accepts [192, 0, 2, 1] = false := by
  have literal : Literal "::".toList ⟨List.replicate 16 0, []⟩ := ⟨by decide, rfl⟩
  refine ⟨.addrMask true true literal rfl fun _ => rfl, .cidr false, ⟨_, rfl, by decide⟩, ⟨_, rfl, by decide⟩,
    ⟨_, rfl, by decide⟩⟩

end Socat.Xio
