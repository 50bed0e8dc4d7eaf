import Socat.Xio.Model.Proxy

/-! # The tunnel behind a proxy

A handshake that succeeds has taken the answer of the proxy from the stream and nothing behind it: reading the
connection gives what follows the answer, whatever the chunks are in which both arrived.
-/

namespace Socat.Xio

open Machine List

/-! ## Reading the tunnel -/

/-- Requests of any sizes give these bytes, and then this error. -/
def Reads {σ : Type} (read : ℕ → σ → Answer UInt8 ConnError × σ) (s : σ) (payload : Bytes) (e : ConnError) : Prop :=
  ∀ sizes : ℕ → ℕ, (∀ i, 0 < sizes i) → ∃ bound, ∀ fuel, bound ≤ fuel → drain read sizes fuel 0 s = (payload, some e)

private theorem reads_of_delivers {σ : Type} {read : ℕ → σ → Answer UInt8 ConnError × σ} {content : σ → Bytes}
    {ending : σ → ConnError} {rank : σ → ℕ} (delivers : Delivers read content ending rank) (s : σ) :
    Reads read s (content s) (ending s) := by
  intro sizes positive
  exact ⟨rank s + 1, fun fuel enough => delivers.drain_eq positive enough 0⟩

namespace PrefixConn

def content (p : PrefixConn) : Bytes := p.ahead ++ p.source.content

private theorem read_delivers : Delivers read content (fun p => p.source.ending)
    fun p => p.ahead.length + p.source.rank := by
  constructor
  · intro n p
    unfold read content
    split_ifs
    · show p.ahead.take n ++ (p.ahead.drop n ++ p.source.content) = _
      rw [← append_assoc, take_append_drop]
    · rename_i empty
      rw [not_not.mp empty]
      exact Source.read_delivers.kept n p.source
  · intro n p e failed
    unfold read content at *
    split_ifs at failed ⊢ with held
    have empty := not_not.mp held
    obtain ⟨done, same⟩ := Source.read_delivers.failed n p.source e failed
    dsimp only at done ⊢
    rw [empty, done]
    exact ⟨rfl, same⟩
  · intro n p
    unfold read
    split_ifs
    · rfl
    · exact Source.read_delivers.ending n p.source
  · intro n p positive going
    unfold read at *
    split_ifs at going ⊢ with held
    · have some := length_pos_of_ne_nil held
      dsimp only
      rw [length_drop]
      omega
    · have nearer := Source.read_delivers.progress n p.source positive going
      dsimp only at nearer ⊢
      omega

end PrefixConn

/-- The connection a handshake returns gives these bytes, and then this error. -/
def Tunnel (ahead : Option Bytes) (c : Conn) (payload : Bytes) (e : ConnError) : Prop :=
  match ahead with
  | none => Reads (fun n (s : Source UInt8 ConnError) => s.read n) c.source payload e
  | some ahead => Reads PrefixConn.read ⟨ahead, c.source⟩ payload e

private theorem tunnel_of_content {ahead : Option Bytes} {c : Conn} {payload : Bytes}
    (content : ahead.getD [] ++ c.source.content = payload) : Tunnel ahead c payload c.source.ending := by
  subst content
  cases ahead with
  | none => exact reads_of_delivers Source.read_delivers c.source
  | some ahead => exact reads_of_delivers PrefixConn.read_delivers ⟨ahead, c.source⟩

/-! ## Fields -/

/-- What is still to come on the connection, and how it ends. -/
def Left (c : Conn) (rest : Bytes) (e : ConnError) : Prop := c.source.content = rest ∧ c.source.ending = e

/-- The handshake takes what stands before the rest, or fails. -/
def Takes {α : Type} (x : Handshake α) (c : Conn) (Q : α → Prop) (rest : Bytes) (e : ConnError) : Prop :=
  Ends x c (fun a c' => Q a ∧ Left c' rest e) fun _ _ => True

section Takes

variable {α β : Type} {c : Conn} {rest : Bytes} {e : ConnError}

theorem takes_bind {x : Handshake β} {f : β → Handshake α} {Q : α → Prop} {P : β → Prop} {mid : Bytes}
    (first : Takes x c P mid e) (later : ∀ b c', P b → Left c' mid e → Takes (f b) c' Q rest e) :
    Takes (x >>= f) c Q rest e := by
  unfold Takes
  rw [ends_bind]
  apply first.mono
  · rintro b c' ⟨holds, left⟩
    exact later b c' holds left
  · exact fun _ _ _ => trivial

theorem takes_write (data : Bytes) (left : Left c rest e) : Takes (Conn.write data) c (fun _ => True) rest e := by
  apply ends_of_cases
  · intro _ c' written
    unfold Conn.write at written
    split at written <;> cases written <;> exact ⟨trivial, left⟩
  · exact fun _ _ _ => trivial

theorem takes_readFull {n : ℕ} {wrap : ConnError → ProxyError} {field : Bytes} (length : field.length = n)
    (left : Left c (field ++ rest) e) : Takes (Conn.readFull n wrap) c (· = field) rest e := by
  obtain ⟨answer, content, ending⟩ : (c.source.readFull ConnError.short n).1 = ⟨field, none⟩ ∧ _ :=
    Source.readFull_append length left.1
  apply ends_of_cases
  · intro got c' read
    unfold Conn.readFull at read
    dsimp only at read
    rw [answer] at read
    cases read
    exact ⟨rfl, content, ending.trans left.2⟩
  · exact fun _ _ _ => trivial

theorem takes_throwIf {p : Prop} [Decidable p] {error : ProxyError} (left : Left c rest e) :
    Takes (throwIf p error) c (fun _ => True) rest e :=
  ends_throwIf.mpr ⟨fun _ => trivial, fun _ => ⟨trivial, left⟩⟩

theorem takes_guard {p : Prop} [Decidable p] {error : ProxyError} {f : Unit → Handshake α} {Q : α → Prop}
    (later : Takes (f ()) c Q rest e) : Takes (throwIf p error >>= f) c Q rest e := ends_guard trivial fun _ => later

end Takes

/-! ## SOCKS -/

/-- An answer of a SOCKS 4 server that grants the request. -/
structure Socks4Reply (reply : Bytes) : Prop where
  length : reply.length = 8
  granted : reply.getD 1 0 = 90

/-- The choice of no credentials, or of credentials and their acceptance. -/
inductive Socks5Hello : Bytes → Prop
  | unauthenticated : Socks5Hello [5, 0]
  | authenticated (version : UInt8) : Socks5Hello [5, 2, version, 0]

/-- An answer of a SOCKS 5 server that grants the request, with an address of any type and a port. -/
inductive Socks5Answer : Bytes → Prop
  | ipv4 (reserved : UInt8) {addr : Bytes} : addr.length = 6 → Socks5Answer ([5, 0, reserved, 1] ++ addr)
  | ipv6 (reserved : UInt8) {addr : Bytes} : addr.length = 18 → Socks5Answer ([5, 0, reserved, 4] ++ addr)
  | domain (reserved length : UInt8) {addr : Bytes} : addr.length = length.toNat + 2 →
      Socks5Answer ([5, 0, reserved, 3] ++ ([length] ++ addr))

/-- All that a SOCKS 5 server says before the tunnel. -/
inductive Socks5Reply : Socks5Command → Bytes → Prop
  | connect {hello answer : Bytes} : Socks5Hello hello → Socks5Answer answer → Socks5Reply .connect (hello ++ answer)
  | bind {hello opened connected : Bytes} : Socks5Hello hello → Socks5Answer opened → Socks5Answer connected →
      Socks5Reply .bind (hello ++ (opened ++ connected))

section Socks

variable {c : Conn} {rest : Bytes} {e : ConnError}

private theorem takes_socks4ReadReply {reply : Bytes} (granted : Socks4Reply reply) (left : Left c (reply ++ rest) e) :
    Takes socks4ReadReply c (fun _ => True) rest e := by
  unfold socks4ReadReply
  apply takes_bind (takes_readFull granted.length left)
  rintro resp c' rfl left
  exact takes_throwIf left

private theorem takes_socks4Handshake {reply : Bytes} (granted : Socks4Reply reply) (left : Left c (reply ++ rest) e)
    (socks4a : Bool) (user hostName ip4 : Bytes) (portNum : ℤ) :
    Takes (socks4Handshake socks4a user hostName ip4 portNum) c (fun _ => True) rest e := by
  unfold socks4Handshake
  apply takes_guard
  apply takes_bind (takes_write _ left)
  intro _ c' _ left
  exact takes_socks4ReadReply granted left

private theorem takes_socks5ReadReply {answer : Bytes} (granted : Socks5Answer answer)
    (left : Left c (answer ++ rest) e) :
    Takes socks5ReadReply c (fun _ => True) rest e := by
  have skip : ∀ {c : Conn} {n : ℕ} {addr : Bytes}, addr.length = n → Left c (addr ++ rest) e →
      Takes (do let _ ← Conn.readFull n fun e => .read (some e)) c (fun _ => True) rest e := by
    intro c n addr length left
    apply takes_bind (takes_readFull length left)
    intro _ c' _ left
    exact ⟨trivial, left⟩
  unfold socks5ReadReply
  cases granted with
  | ipv4 reserved length | ipv6 reserved length =>
    rw [append_assoc] at left
    apply takes_bind (takes_readFull rfl left)
    rintro hdr c' rfl left
    apply takes_guard
    apply takes_guard
    exact skip length left
  | domain reserved count length =>
    rw [append_assoc, append_assoc] at left
    apply takes_bind (takes_readFull rfl left)
    rintro hdr c' rfl left
    apply takes_guard
    apply takes_guard
    apply takes_bind (takes_readFull rfl left)
    rintro ln c' rfl left
    exact skip length left

private theorem takes_socks5Negotiate {hello : Bytes} (said : Socks5Hello hello) (left : Left c (hello ++ rest) e)
    (auth : Socks5Auth) : Takes (socks5Negotiate auth) c (fun _ => True) rest e := by
  unfold socks5Negotiate
  apply takes_bind (takes_write _ left)
  intro _ c' _ left
  cases said with
  | unauthenticated =>
    apply takes_bind (takes_readFull rfl left)
    rintro got c' rfl left
    apply takes_guard
    exact ⟨trivial, left⟩
  | authenticated version =>
    apply takes_bind (takes_readFull rfl (show Left c' ([5, 2] ++ ([version, 0] ++ rest)) e from left))
    rintro got c' rfl left
    apply takes_guard
    show Takes (socks5Authenticate auth) c' (fun _ => True) rest e
    unfold socks5Authenticate
    apply takes_guard
    apply takes_guard
    apply takes_bind (takes_write _ left)
    intro _ c' _ left
    apply takes_bind (takes_readFull rfl left)
    rintro aresp c' rfl left
    exact takes_throwIf left

private theorem takes_socks5Handshake {cmd : Socks5Command} {reply : Bytes} (granted : Socks5Reply cmd reply)
    (left : Left c (reply ++ rest) e) (dest : Socks5Dest) (auth : Socks5Auth) :
    Takes (socks5Handshake cmd dest auth) c (fun _ => True) rest e := by
  have inner : Takes (do socks5Negotiate auth; socks5Request cmd dest) c (fun _ => True) rest e := by
    cases granted with
    | connect hello answer =>
      rw [append_assoc] at left
      apply takes_bind (takes_socks5Negotiate hello left auth)
      intro _ c' _ left
      unfold socks5Request
      apply takes_guard
      apply takes_bind (takes_write _ left)
      intro _ c' _ left
      apply takes_bind (takes_socks5ReadReply answer left)
      intro _ c' _ left
      exact ⟨trivial, left⟩
    | bind hello opened connected =>
      rw [append_assoc, append_assoc] at left
      apply takes_bind (takes_socks5Negotiate hello left auth)
      intro _ c' _ left
      unfold socks5Request
      apply takes_guard
      apply takes_bind (takes_write _ left)
      intro _ c' _ left
      apply takes_bind (takes_socks5ReadReply opened left)
      intro _ c' _ left
      exact takes_socks5ReadReply connected left
  apply ends_of_cases
  · intro _ c' done
    unfold socks5Handshake at done
    split at done
    · rename_i ended
      cases done
      unfold Takes at inner
      exact inner.ok ended
    · cases done
  · exact fun _ _ _ => trivial

end Socks

/-! ## HTTP -/

/-- Bytes up to and including a newline. -/
def Line (line : Bytes) : Prop := ∃ before, line = before ++ [0x0a] ∧ (0x0a : UInt8) ∉ before

/-- The line that ends the headers. -/
def Blank (ignoreCR : Bool) (line : Bytes) : Prop :=
  if ignoreCR then line.filter (· ≠ 0x0d) = [0x0a] else line = [0x0d, 0x0a]

instance (ignoreCR : Bool) (line : Bytes) : Decidable (Blank ignoreCR line) :=
  inferInstanceAs (Decidable (if ignoreCR then _ else _))

/-- A status line, headers, and the first blank line. -/
structure HttpReply (ignoreCR : Bool) (status : Bytes) (headers : List Bytes) (blank : Bytes) : Prop where
  status : Line status
  headers : ∀ header ∈ headers, Line header ∧ ¬Blank ignoreCR header
  blank : Line blank ∧ Blank ignoreCR blank

def replyBytes (status : Bytes) (headers : List Bytes) (blank : Bytes) : Bytes := status ++ (headers.flatten ++ blank)

theorem Line.append_inj {a b x y : Bytes} (left : Line a) (right : Line b) (same : a ++ x = b ++ y) :
    a = b ∧ x = y := by
  obtain ⟨before, rfl, absent⟩ := left
  obtain ⟨before', rfl, absent'⟩ := right
  rw [append_assoc, append_assoc] at same
  have stop : ∀ {front rest : Bytes}, (0x0a : UInt8) ∉ front →
      (front ++ ([0x0a] ++ rest)).takeWhile (· ≠ 0x0a) = front := by
    intro front rest none
    have all : ∀ b ∈ front, decide (b ≠ 0x0a) = true := fun b member =>
      decide_eq_true fun (newline : b = 0x0a) => none (newline ▸ member)
    rw [takeWhile_append_of_pos all]
    simp
  have fronts : before = before' := by
    have taken := congrArg (List.takeWhile (· ≠ 0x0a)) same
    rwa [stop absent, stop absent'] at taken
  subst fronts
  rw [append_cancel_left_eq, append_cancel_left_eq] at same
  exact ⟨rfl, same⟩

/-- Headers and a blank line are cut from a stream in one way. -/
private theorem headers_append_inj {ignoreCR : Bool} {headers headers' : List Bytes} {blank blank' x y : Bytes}
    (left : ∀ header ∈ headers, Line header ∧ ¬Blank ignoreCR header)
    (right : ∀ header ∈ headers', Line header ∧ ¬Blank ignoreCR header) (ends : Line blank ∧ Blank ignoreCR blank)
    (ends' : Line blank' ∧ Blank ignoreCR blank')
    (same : headers.flatten ++ blank ++ x = headers'.flatten ++ blank' ++ y) :
    headers.flatten ++ blank = headers'.flatten ++ blank' ∧ x = y := by
  induction headers generalizing headers' with
  | nil =>
    cases headers' with
    | nil => exact ends.1.append_inj ends'.1 same
    | cons header headers' =>
      obtain ⟨line, filled⟩ := right header mem_cons_self
      simp only [flatten_nil, nil_append, flatten_cons, append_assoc] at same
      exact absurd ((ends.1.append_inj line same).1 ▸ ends.2) filled
  | cons header headers ih =>
    obtain ⟨line, filled⟩ := left header mem_cons_self
    cases headers' with
    | nil =>
      simp only [flatten_nil, nil_append, flatten_cons, append_assoc] at same
      exact absurd ((line.append_inj ends'.1 same).1 ▸ ends'.2) filled
    | cons header' headers' =>
      obtain ⟨line', -⟩ := right header' mem_cons_self
      simp only [flatten_cons, append_assoc] at same
      obtain ⟨rfl, rest⟩ := line.append_inj line' same
      obtain ⟨tails, rest⟩ := ih (fun h member => left h (mem_cons_of_mem _ member))
        (fun h member => right h (mem_cons_of_mem _ member)) (by simpa only [append_assoc] using rest)
      refine ⟨?_, rest⟩
      rw [flatten_cons, flatten_cons, append_assoc, append_assoc, tails]

theorem HttpReply.append_inj {ignoreCR : Bool} {status status' blank blank' x y : Bytes} {headers headers' : List Bytes}
    (left : HttpReply ignoreCR status headers blank) (right : HttpReply ignoreCR status' headers' blank')
    (same : replyBytes status headers blank ++ x = replyBytes status' headers' blank' ++ y) :
    replyBytes status headers blank = replyBytes status' headers' blank' ∧ x = y := by
  unfold replyBytes at same ⊢
  rw [append_assoc status, append_assoc status'] at same
  obtain ⟨rfl, rest⟩ := left.status.append_inj right.status same
  obtain ⟨tails, rest⟩ := headers_append_inj left.headers right.headers left.blank right.blank rest
  exact ⟨by rw [tails], rest⟩

section Http

variable {ignoreCR : Bool}

/-- The reader has gone on behind these bytes. -/
structure Consumes (r : Response) (taken : Bytes) (r' : Response) : Prop where
  content : r.reader.content = taken ++ r'.reader.content
  ending : r'.reader.source.ending = r.reader.source.ending
  total : r'.total = r.total + taken.length
  limit : r'.total ≤ maxHTTP1ProxyResponseBytes

theorem Consumes.trans {r r' r'' : Response} {first second : Bytes} (left : Consumes r first r')
    (right : Consumes r' second r'') : Consumes r (first ++ second) r'' where
  content := by rw [left.content, right.content, append_assoc]
  ending := right.ending.trans left.ending
  total := by rw [right.total, left.total, length_append, Nat.add_assoc]
  limit := right.limit

private theorem blankLine_of_crlf {line : Bytes} (crlf : (ascii "\r\n").isSuffixOf line = true) :
    proxyHTTP1BlankLine line = true ↔ Blank false line := by
  have other : line ≠ ascii "\n" := by
    rintro rfl
    exact absurd crlf (by decide)
  simp only [proxyHTTP1BlankLine, Blank, other, or_false, decide_eq_true_eq, Bool.false_eq_true, if_false]
  exact Iff.rfl

private theorem blankLine_filter (raw : Bytes) :
    proxyHTTP1BlankLine (raw.filter (· ≠ 0x0d)) = true ↔ Blank true raw := by
  have other : raw.filter (· ≠ 0x0d) ≠ ascii "\r\n" := by
    intro same
    have member : (0x0d : UInt8) ∈ raw.filter (· ≠ 0x0d) := same ▸ mem_cons_self
    simp at member
  simp only [proxyHTTP1BlankLine, Blank, other, false_or, decide_eq_true_eq, if_true]
  exact Iff.rfl

/-- A line that is returned was cut from the stream, and looks blank exactly if it is. -/
theorem readProxyResponseLine_ends (wrap : ProxyError → ProxyError) (r : Response) :
    Ends (readProxyResponseLine ignoreCR wrap) r (fun line r' => ∃ raw, Line raw ∧ Consumes r raw r' ∧
      (proxyHTTP1BlankLine line = true ↔ Blank ignoreCR raw)) fun _ _ => True := by
  apply ends_of_cases
  · intro line r' read
    unfold readProxyResponseLine at read
    dsimp only at read
    by_cases long : maxHTTP1ProxyResponseBytes <
      r.total + (r.reader.readSlice (maxHTTP1ProxyResponseBytes + 1) 100 0x0a).1.items.length
    · rw [if_pos long] at read
      cases read
    rw [if_neg long] at read
    split at read
    · cases read
    · cases read
    · cases read
    · rename_i returned
      obtain ⟨kept, same⟩ := Lookahead.readSliceFrom_kept (maxHTTP1ProxyResponseBytes + 1) 100 (0x0a : UInt8)
        (r.reader.source.rank + 2) r.reader
      have cut := Lookahead.readSliceFrom_line (maxHTTP1ProxyResponseBytes + 1) 100 (0x0a : UInt8) returned
      have consumed : Consumes r (r.reader.readSlice (maxHTTP1ProxyResponseBytes + 1) 100 0x0a).1.items
          ⟨(r.reader.readSlice (maxHTTP1ProxyResponseBytes + 1) 100 0x0a).2,
            r.total + (r.reader.readSlice (maxHTTP1ProxyResponseBytes + 1) 100 0x0a).1.items.length⟩ :=
        ⟨kept.symm, same, rfl, Nat.le_of_not_lt long⟩
      split_ifs at read with ignored crlf
      · cases read
        subst ignored
        exact ⟨_, cut, consumed, blankLine_filter _⟩
      · cases read
        rw [Bool.not_eq_true] at ignored
        subst ignored
        rw [Bool.not_eq_true', Bool.not_eq_false] at crlf
        exact ⟨_, cut, consumed, blankLine_of_crlf crlf⟩
  · exact fun _ _ _ => trivial

private theorem drainHeaders_ends (fuel : ℕ) (r : Response) :
    Ends (drainHeaders ignoreCR fuel) r (fun _ r' => ∃ (headers : List Bytes) (blank : Bytes),
      (∀ header ∈ headers, Line header ∧ ¬Blank ignoreCR header) ∧ (Line blank ∧ Blank ignoreCR blank) ∧
      Consumes r (headers.flatten ++ blank) r') fun _ _ => True := by
  induction fuel generalizing r with
  | zero => exact trivial
  | succ fuel ih =>
    unfold drainHeaders
    rw [ends_bind]
    apply (readProxyResponseLine_ends id r).mono
    · rintro line r' ⟨raw, cut, consumed, empty⟩
      rw [ends_ite]
      split_ifs with found
      · exact ⟨[], raw, by simp, ⟨cut, empty.mp found⟩, consumed⟩
      · apply (ih r').mono
        · rintro _ r'' ⟨headers, blank, lines, stop, later⟩
          refine ⟨raw :: headers, blank, ?_, stop, ?_⟩
          · intro header member
            rcases mem_cons.mp member with rfl | member
            · exact ⟨cut, fun blank => found (empty.mpr blank)⟩
            · exact lines header member
          · rw [flatten_cons, append_assoc]
            exact consumed.trans later
        · exact fun _ _ _ => trivial
    · exact fun _ _ _ => trivial

private theorem readProxyResponse_ends (r : Response) :
    Ends (readProxyResponse ignoreCR) r (fun _ r' => ∃ status headers blank, HttpReply ignoreCR status headers blank ∧
      Consumes r (replyBytes status headers blank) r') fun _ _ => True := by
  unfold readProxyResponse
  rw [ends_bind]
  apply (readProxyResponseLine_ends _ r).mono
  · rintro line r' ⟨status, cut, consumed, -⟩
    refine ends_guard trivial fun _ => ?_
    rw [ends_bind, ends_get]
    apply (drainHeaders_ends _ r').mono
    · rintro _ r'' ⟨headers, blank, lines, stop, later⟩
      exact ⟨status, headers, blank, ⟨cut, lines, stop⟩, consumed.trans later⟩
    · exact fun _ _ _ => trivial
  · exact fun _ _ _ => trivial

/-- A CONNECT that succeeds has read a reply, and what it holds and has not read is what follows the reply. -/
private theorem proxyHTTP1Handshake_ends (files : Files) (proxy : Proxy) (connectHost : Bytes) (targetPort : ℕ)
    (version : Bytes)
    (c : Conn) :
    Ends (proxyHTTP1Handshake files proxy connectHost targetPort version) c (fun ahead c' =>
      ∃ status headers blank, HttpReply proxy.ignoreCR status headers blank ∧
        (replyBytes status headers blank).length ≤ maxHTTP1ProxyResponseBytes ∧
        c.source.content = replyBytes status headers blank ++ (ahead.getD [] ++ c'.source.content) ∧
        c'.source.ending = c.source.ending) fun _ _ => True := by
  unfold proxyHTTP1Handshake
  rw [ends_bind, ends_lift]
  constructor
  · intro auth _
    rw [ends_bind]
    apply (takes_write _ ⟨rfl, rfl⟩ : Takes _ c _ c.source.content c.source.ending).mono
    · rintro _ c' ⟨-, same, ending⟩
      rw [ends_bind, ends_get]
      have reply : Ends (readProxyResponse proxy.ignoreCR) ⟨⟨c'.source, [], none⟩, 0⟩ _ _ := readProxyResponse_ends _
      split
      · trivial
      · rename_i r answered
        obtain ⟨status, headers, blank, form, consumed⟩ := reply.ok answered
        have limit := consumed.limit
        rw [consumed.total, Nat.zero_add] at limit
        rw [ends_bind, ends_set]
        refine ⟨status, headers, blank, form, limit, ?_, consumed.ending.trans ending⟩
        have content := consumed.content
        rw [show (⟨⟨c'.source, [], none⟩, 0⟩ : Response).reader.content = c'.source.content from rfl, same] at content
        rw [content]
        split_ifs with held
        · rw [Lookahead.content, held]
          rfl
        · rfl
    · exact fun _ _ _ => trivial
  · exact fun _ _ => trivial

end Http

/-! ## The tunnel -/

/-- Whatever the chunks, a handshake that succeeds leaves the connection at the first byte behind the answer of the
proxy; for HTTP there is such an answer, of no more than 64 KiB. -/
theorem handshakes_leave_tunnel :
    (∀ (files : Files) (proxy : Proxy) (connectHost : Bytes) (targetPort : ℕ) (version : Bytes) (c c' : Conn)
      (ahead : Option Bytes), proxyHTTP1Handshake files proxy connectHost targetPort version c = .ok ahead c' →
      (∃ status headers blank payload, HttpReply proxy.ignoreCR status headers blank ∧
        c.source.content = replyBytes status headers blank ++ payload) ∧
      ∀ status headers blank payload, HttpReply proxy.ignoreCR status headers blank →
        c.source.content = replyBytes status headers blank ++ payload →
        (replyBytes status headers blank).length ≤ maxHTTP1ProxyResponseBytes ∧
          Tunnel ahead c' payload c.source.ending) ∧
    (∀ (socks4a : Bool) (user hostName ip4 : Bytes) (portNum : ℤ) (c c' : Conn) (reply payload : Bytes),
      Socks4Reply reply → c.source.content = reply ++ payload →
      socks4Handshake socks4a user hostName ip4 portNum c = .ok () c' → Tunnel none c' payload c.source.ending) ∧
    ∀ (cmd : Socks5Command) (dest : Socks5Dest) (auth : Socks5Auth) (c c' : Conn) (reply payload : Bytes),
      Socks5Reply cmd reply → c.source.content = reply ++ payload →
      socks5Handshake cmd dest auth c = .ok () c' → Tunnel none c' payload c.source.ending := by
  refine ⟨?_, ?_, ?_⟩
  · intro files proxy connectHost targetPort version c c' ahead done
    obtain ⟨status, headers, blank, form, limit, content, ending⟩ :=
      (proxyHTTP1Handshake_ends files proxy connectHost targetPort version c).ok done
    refine ⟨⟨status, headers, blank, _, form, content⟩, ?_⟩
    intro status' headers' blank' payload form' content'
    obtain ⟨same, rest⟩ := form.append_inj form' (content.symm.trans content')
    rw [← same, ← ending]
    exact ⟨limit, tunnel_of_content rest⟩
  · intro socks4a user hostName ip4 portNum c c' reply payload granted content done
    obtain ⟨-, left, ending⟩ :=
      Ends.ok (takes_socks4Handshake granted ⟨content, rfl⟩ socks4a user hostName ip4 portNum) done
    rw [← ending]
    exact tunnel_of_content left
  · intro cmd dest auth c c' reply payload granted content done
    obtain ⟨-, left, ending⟩ := Ends.ok (takes_socks5Handshake granted ⟨content, rfl⟩ dest auth) done
    rw [← ending]
    exact tunnel_of_content left

/-- The handshake has ended well. -/
def succeeded {α : Type} : EStateM.Result ProxyError Conn α → Bool
  | .ok _ _ => true
  | .error _ _ => false

theorem exists_of_succeeded {α : Type} {r : EStateM.Result ProxyError Conn α} (ok : succeeded r = true) :
    ∃ a c, r = .ok a c := by
  cases r with
  | ok a c => exact ⟨a, c, rfl⟩
  | error e c => cases ok

/-- The end of the answer and the start of the tunnel in one chunk. -/
theorem sample_tunnels :
    (∃ ahead c', proxyHTTP1Handshake ⟨fun _ => none, id⟩ ⟨false, [], []⟩ (ascii "h") 80 (ascii "1.0")
      { source := ⟨[ascii "HTTP/1.1 200 OK\r\nA: b\r", ascii "\n\r\nhi", ascii " there"], .eof, false⟩ } =
        .ok ahead c' ∧
      Tunnel ahead c' (ascii "hi there") .eof) ∧
    (∃ c', socks4Handshake false [] [] [10, 0, 0, 1] 80
      { source := ⟨[[0, 90, 0, 0, 0, 0], [0, 0] ++ ascii "hi"], .eof, true⟩ } = .ok () c' ∧
        Tunnel none c' (ascii "hi") .eof) ∧
    ∃ c', socks5Handshake .connect ⟨1, [10, 0, 0, 1], 80⟩ ⟨[], [], false⟩
      { source := ⟨[[5], [0, 5, 0, 0, 1], [0, 0, 0, 0, 0, 0] ++ ascii "hi"], .eof, false⟩ } = .ok () c' ∧
      Tunnel none c' (ascii "hi") .eof := by
  obtain ⟨http, socks4, socks5⟩ := handshakes_leave_tunnel
  refine ⟨?_, ?_, ?_⟩
  · obtain ⟨ahead, c', done⟩ := exists_of_succeeded (r := proxyHTTP1Handshake ⟨fun _ => none, id⟩ ⟨false, [], []⟩
      (ascii "h") 80 (ascii "1.0")
      { source := ⟨[ascii "HTTP/1.1 200 OK\r\nA: b\r", ascii "\n\r\nhi", ascii " there"], .eof, false⟩ })
        (by decide +kernel)
    refine ⟨ahead, c', done, ((http _ _ _ _ _ _ _ _ done).2 (ascii "HTTP/1.1 200 OK\r\n") [ascii "A: b\r\n"]
      (ascii "\r\n") (ascii "hi there") ⟨?_, ?_, ?_, ?_⟩ (by decide +kernel)).2⟩
    · exact ⟨ascii "HTTP/1.1 200 OK\r", by decide +kernel, by decide +kernel⟩
    · intro header member
      rw [mem_singleton.mp member]
      exact ⟨⟨ascii "A: b\r", by decide +kernel, by decide +kernel⟩, by decide +kernel⟩
    · exact ⟨ascii "\r", by decide +kernel, by decide +kernel⟩
    · exact by decide +kernel
  · obtain ⟨_, c', done⟩ := exists_of_succeeded (r := socks4Handshake false [] [] [10, 0, 0, 1] 80
      { source := ⟨[[0, 90, 0, 0, 0, 0], [0, 0] ++ ascii "hi"], .eof, true⟩ }) (by decide +kernel)
    exact ⟨c', done, socks4 _ _ _ _ _ _ _ [0, 90, 0, 0, 0, 0, 0, 0] (ascii "hi") ⟨rfl, rfl⟩ (by decide +kernel) done⟩
  · obtain ⟨_, c', done⟩ := exists_of_succeeded (r := socks5Handshake .connect ⟨1, [10, 0, 0, 1], 80⟩ ⟨[], [], false⟩
      { source := ⟨[[5], [0, 5, 0, 0, 1], [0, 0, 0, 0, 0, 0] ++ ascii "hi"], .eof, false⟩ }) (by decide +kernel)
    exact ⟨c', done, socks5 _ _ _ _ _ _ (ascii "hi")
      (.connect .unauthenticated (.ipv4 0 (show [0, 0, 0, 0, 0, 0].length = 6 from rfl))) (by decide +kernel) done⟩

end Socat.Xio
